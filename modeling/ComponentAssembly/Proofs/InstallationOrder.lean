import ComponentAssembly.Injector.Access
import ComponentAssembly.Proofs.Requests
import ComponentAssembly.Proofs.Registrations

/-!
# The order of modules does not matter

Modules are installed one after the other, and each may be refused because of one before it.  If no two
of them bind from the same source, this is symmetric:

    Module.Compatible ms    no key is had by two methods, of one module or of two
      → installed           each method has its factory under all its keys (`State.InstallsAll`)
    otherwise               refused, in every order

What is installed is said of the modules as a set, so it is the same in every order
(`State.setUp_any_order`).
-/

namespace ComponentAssembly

open Assemble

namespace Module

/-- Two modules do not share a key. -/
def KeysApart (m m' : Module) : Prop :=
  ∀ method ∈ m.methods, ∀ method' ∈ m'.methods, method.keys.Disjoint method'.keys

/-- Two modules do not bind from the same source. -/
def SourcesApart (m m' : Module) : Prop :=
  ∀ method ∈ m.methods, ∀ method' ∈ m'.methods, m.sourceOf method ≠ m'.sourceOf method'

/-- No two methods share a key, neither of one module nor of two. -/
def Compatible (ms : List Module) : Prop :=
  (∀ m ∈ ms, m.Disjoint) ∧ ms.Pairwise KeysApart

theorem KeysApart.symm {m m' : Module} (h : m.KeysApart m') : m'.KeysApart m :=
  fun method' hmethod' method hmethod => (h method hmethod method' hmethod').symm

theorem SourcesApart.symm {m m' : Module} (h : m.SourcesApart m') : m'.SourcesApart m :=
  fun method' hmethod' method hmethod => (h method hmethod method' hmethod').symm

@[simp]
theorem compatible_cons {m : Module} {ms : List Module} :
    Compatible (m :: ms) ↔ m.Disjoint ∧ (∀ m' ∈ ms, m.KeysApart m') ∧ Compatible ms := by
  unfold Compatible
  rw [List.forall_mem_cons, List.pairwise_cons]
  tauto

theorem Compatible.perm_iff {ms ms' : List Module} (h : ms'.Perm ms) :
    Compatible ms' ↔ Compatible ms := by
  unfold Compatible
  rw [h.pairwise_iff fun h => h.symm]
  simp only [h.mem_iff]

end Module

namespace State

variable {s t u : State} {m : Module} {ms : List Module}

/-! ## Sources after an installation -/

theorem Installs.source?_of_mem (h : s.Installs m m.methods t) {method : FactoryMethod}
    (hmethod : method ∈ m.methods) {key : Key} (hkey : key ∈ method.keys) :
    t.source? key = some (m.sourceOf method) := by
  obtain ⟨kept, -, hbound⟩ := h.bound method hmethod
  exact source?_eq_some_iff.mpr ⟨_, hbound key hkey, rfl⟩

theorem Installs.source?_of_not_mem (h : s.Installs m m.methods t) {key : Key}
    (hkey : ∀ method ∈ m.methods, key ∉ method.keys) : t.source? key = s.source? key := by
  unfold State.source?
  rw [h.others key hkey]

/-- A module stays free if it has no key in common with one that is installed. -/
theorem Installs.free (h : s.Installs m m.methods t) {m' : Module} (hkeys : m.KeysApart m')
    (hfree : m'.FreeIn s) : m'.FreeIn t := by
  intro method' hmethod' key hkey existing hexisting
  refine hfree method' hmethod' key hkey existing ?_
  rw [← h.source?_of_not_mem fun method hmethod hmem => hkeys method hmethod method' hmethod' hmem hkey]
  exact hexisting

/-- A module is not free any more if it shares a key with one that is installed. -/
theorem Installs.not_free (h : s.Installs m m.methods t) {m' : Module} (hsources : m.SourcesApart m')
    (hkeys : ¬ m.KeysApart m') : ¬ m'.FreeIn t := by
  intro hfree
  refine hkeys fun method hmethod method' hmethod' key hkey hkey' => ?_
  have hsource := hfree method' hmethod' key hkey' _ (h.source?_of_mem hmethod hkey)
  exact hsources method hmethod method' hmethod' hsource

/-- A module that is not free does not become so. -/
theorem Installs.stays_taken (h : s.Installs m m.methods t) {m' : Module}
    (hsources : m.SourcesApart m') (htaken : ¬ m'.FreeIn s) : ¬ m'.FreeIn t := by
  intro hfree
  by_cases hkeys : m.KeysApart m'
  · refine htaken fun method' hmethod' key hkey existing hexisting => ?_
    refine hfree method' hmethod' key hkey existing ?_
    rw [h.source?_of_not_mem fun method hmethod hmem => hkeys method hmethod method' hmethod' hmem hkey]
    exact hexisting
  · exact h.not_free hsources hkeys hfree

/-! ## Many modules -/

def installEach (ms : List Module) : Assemble PUnit :=
  forIn ms PUnit.unit fun m _ => do
    installModule m
    return .yield PUnit.unit

theorem installEach_error {stop : Stop} (h : installModule m s = (.error stop, t)) :
    installEach (m :: ms) s = (.error stop, t) := by
  simp only [installEach, List.forIn_cons, run_bind, h]

/-- What installing some modules makes of a state. -/
structure InstallsAll (s : State) (ms : List Module) (t : State) : Prop where
  /-- All keys of a method are bound to one factory, in the scope of the method. -/
  bound : ∀ m ∈ ms, ∀ method ∈ m.methods, ∃ kept,
    (t.tables.scopeOf method.scope).Wraps s t method.key (.method method.key method.recipe) kept ∧
      ∀ key ∈ method.keys, t.tables.binding? key =
        some { key, factory := .guarded method.key kept, origin := .explicit (m.sourceOf method) }
  others : ∀ key, (∀ m ∈ ms, ∀ method ∈ m.methods, key ∉ method.keys) →
    t.tables.binding? key = s.tables.binding? key
  scopes : t.tables.scopes = s.tables.scopes
  cells : s.cells <+: t.cells

theorem InstallsAll.cons {log : List LogRecord} {events : List Event}
    (h : State.Installs { s with journal := { s.journal with events, log } } m m.methods t)
    (h' : t.InstallsAll ms u) (hkeys : ∀ m' ∈ ms, m.KeysApart m') : s.InstallsAll (m :: ms) u := by
  have hscopes : t.tables.scopes = s.tables.scopes := by rw [h.rest]
  refine ⟨?_, fun key hkey => ?_, h'.scopes.trans hscopes, h.cells.trans h'.cells⟩
  · intro other hother method hmethod
    rcases List.mem_cons.mp hother with rfl | hother
    · obtain ⟨kept, hwraps, hbound⟩ := h.bound method hmethod
      have hscope : u.tables.scopeOf method.scope = s.tables.scopeOf method.scope := by
        unfold Tables.scopeOf Tables.scope?
        rw [h'.scopes, hscopes]
      refine ⟨kept, hscope ▸ hwraps.mono (Nat.le_refl _) h'.cells, fun key hkey => ?_⟩
      rw [h'.others key fun m' hm' method' hmethod' =>
        hkeys m' hm' method hmethod method' hmethod' hkey]
      exact hbound key hkey
    · obtain ⟨kept, hwraps, hbound⟩ := h'.bound other hother method hmethod
      exact ⟨kept, hwraps.mono h.cells.length_le List.prefix_rfl, hbound⟩
  · obtain ⟨hfirst, hrest⟩ := List.forall_mem_cons.mp hkey
    exact (h'.others key hrest).trans (h.others key hfirst)

/-- A module that is not free is refused when its turn comes, if none is refused before. -/
theorem installEach_taken (happart : ms.Pairwise Module.SourcesApart)
    (htaken : ∃ m ∈ ms, ¬ m.FreeIn s) :
    ∃ cause t, installEach ms s = (.error (.error cause), t) := by
  induction ms generalizing s with
  | nil =>
    obtain ⟨m, hm, -⟩ := htaken
    cases hm
  | cons m rest ih =>
    obtain ⟨hsources, hrest⟩ := List.pairwise_cons.mp happart
    obtain ⟨-, ⟨log, rfl⟩, ⟨-, hfree, t, hrun, hinstalls⟩ | ⟨-, cause, -, hrun⟩⟩ :=
      s.installModule_whole m
    · obtain ⟨m', hm', hnot⟩ := htaken
      rcases List.mem_cons.mp hm' with rfl | hm'
      · exact absurd hfree hnot
      · obtain ⟨cause, u, hloop⟩ :=
          ih hrest ⟨m', hm', hinstalls.stays_taken (hsources m' hm') hnot⟩
        exact ⟨cause, u, (each_cons hrun).trans hloop⟩
    · exact ⟨cause, _, installEach_error hrun⟩

/-- **Modules one after the other.**  They are all installed if no two methods share a key; otherwise
one of them is refused. -/
theorem installEach_spec (happart : ms.Pairwise Module.SourcesApart) (hfree : ∀ m ∈ ms, m.FreeIn s) :
    (Module.Compatible ms ∧ ∃ t, installEach ms s = (.ok PUnit.unit, t) ∧ s.InstallsAll ms t) ∨
      ¬ Module.Compatible ms ∧ ∃ cause t, installEach ms s = (.error (.error cause), t) := by
  induction ms generalizing s with
  | nil =>
    refine .inl ⟨⟨by simp, .nil⟩, s, rfl, ?_, fun _ _ => rfl, rfl, List.prefix_rfl⟩
    intro m hm
    cases hm
  | cons m rest ih =>
    obtain ⟨hsources, hrest⟩ := List.pairwise_cons.mp happart
    obtain ⟨hfirst, hfree⟩ := List.forall_mem_cons.mp hfree
    rw [Module.compatible_cons]
    obtain ⟨-, ⟨log, rfl⟩, ⟨hdisjoint, -, t, hrun, hinstalls⟩ | ⟨hnot, cause, -, hrun⟩⟩ :=
      s.installModule_whole m
    · by_cases hkeys : ∀ m' ∈ rest, m.KeysApart m'
      · rcases ih hrest fun m' hm' => hinstalls.free (hkeys m' hm') (hfree m' hm') with
          ⟨hcompatible, u, hloop, hall⟩ | ⟨hnot, cause, u, hloop⟩
        · refine .inl ⟨⟨hdisjoint, hkeys, hcompatible⟩, u, (each_cons hrun).trans hloop, ?_⟩
          exact .cons hinstalls hall hkeys
        · exact .inr ⟨fun h => hnot h.2.2, cause, u, (each_cons hrun).trans hloop⟩
      · -- The first module has taken a key of a later one.
        obtain ⟨m', hm', hshared⟩ : ∃ m' ∈ rest, ¬ m.KeysApart m' := by simpa using hkeys
        obtain ⟨cause, u, hloop⟩ :=
          installEach_taken hrest ⟨m', hm', hinstalls.not_free (hsources m' hm') hshared⟩
        exact .inr ⟨fun h => hkeys h.2.1, cause, u, (each_cons hrun).trans hloop⟩
    · exact .inr ⟨fun h => hnot ⟨h.1, hfirst⟩, cause, _, installEach_error hrun⟩

theorem InstallsAll.perm {ms' : List Module} (h : s.InstallsAll ms' t) (hperm : ms'.Perm ms) :
    s.InstallsAll ms t where
  bound m hm := h.bound m (hperm.mem_iff.mpr hm)
  others key hkey := h.others key fun m hm => hkey m (hperm.mem_iff.mp hm)
  scopes := h.scopes
  cells := h.cells

theorem InstallsAll.logged (h : s.InstallsAll ms t) (log : List LogRecord) :
    s.InstallsAll ms { t with journal := { t.journal with log } } where
  bound m hm method hmethod := by
    obtain ⟨kept, hwraps, hbound⟩ := h.bound m hm method hmethod
    exact ⟨kept, hwraps.mono (Nat.le_refl _) List.prefix_rfl, hbound⟩
  others := h.others
  scopes := h.scopes
  cells := h.cells

/-! ## How many bindings there are -/

/-- No key is bound twice. -/
def Distinct (s : State) : Prop :=
  (s.tables.bindings.map (·.key)).Nodup

theorem mem_keys_iff {key : Key} :
    key ∈ s.tables.bindings.map (·.key) ↔ ∃ b, s.tables.binding? key = some b := by
  unfold Tables.binding?
  rw [← Option.isSome_iff_exists, List.find?_isSome, List.mem_map]
  simp only [beq_iff_eq]

theorem Distinct.put (h : s.Distinct) (b : Binding) :
    State.Distinct { s with tables := s.tables.put b } := by
  unfold Distinct at h ⊢
  cases hb : s.tables.binding? b.key with
  | none =>
    show ((s.tables.put b).bindings.map (·.key)).Nodup
    rw [put_of_unbound hb, List.map_append, List.nodup_append]
    refine ⟨h, by simp, fun key hkey other hother heq => ?_⟩
    obtain ⟨old, hold⟩ := mem_keys_iff.mp hkey
    rw [heq, List.mem_singleton.mp hother, hb] at hold
    cases hold
  | some old =>
    have hany : s.tables.bindings.any (·.key == b.key) := by
      obtain ⟨hmem, hkey⟩ := mem_of_binding? hb
      exact List.any_eq_true.mpr ⟨old, hmem, by simp [hkey]⟩
    have hkeys : (s.tables.put b).bindings.map (·.key) = s.tables.bindings.map (·.key) := by
      unfold Tables.put
      rw [if_pos hany, List.map_map]
      refine List.map_congr_left fun other _ => ?_
      simp only [Function.comp_apply]
      split
      · next heq => exact (eq_of_beq heq).symm
      · rfl
    show ((s.tables.put b).bindings.map (·.key)).Nodup
    rw [hkeys]
    exact h

theorem registrable_distinct : Registrable fun _ s => State.Distinct s where
  fewer h _ := h
  journal _ h := h
  tables _ hbindings h := by
    unfold Distinct at h ⊢
    rw [hbindings]
    exact h
  stores _ h := h
  access _ _ _ _ h := h
  guard _ _ h := h
  wrap := by
    intro _ s scope key inner _ h
    obtain ⟨kept, t, hwrap, -, -, -, ht⟩ := s.wrapIn_eq scope key inner
    refine ⟨kept, t, hwrap, ?_⟩
    rw [ht]
    exact h
  put _ _ _ _ h := h.put _

theorem keeps_installEach (ms : List Module) : Keeps State.Distinct (installEach ms) := by
  refine .each fun m _ _ => ?_
  exact .andThen (@registrable_distinct.keeps_installModule _ [] m) fun _ _ h => h

/-- However modules are installed, there are as many bindings. -/
theorem InstallsAll.length_eq {t' : State} (h : s.InstallsAll ms t) (h' : s.InstallsAll ms t')
    (ht : t.Distinct) (ht' : t'.Distinct) :
    t'.tables.bindings.length = t.tables.bindings.length := by
  have hperm : (t'.tables.bindings.map (·.key)).Perm (t.tables.bindings.map (·.key)) := by
    refine (List.perm_ext_iff_of_nodup ht' ht).mpr fun key => ?_
    rw [mem_keys_iff, mem_keys_iff]
    by_cases hkey : ∃ m ∈ ms, ∃ method ∈ m.methods, key ∈ method.keys
    · obtain ⟨m, hm, method, hmethod, hkey⟩ := hkey
      obtain ⟨kept, -, hbound⟩ := h.bound m hm method hmethod
      obtain ⟨kept', -, hbound'⟩ := h'.bound m hm method hmethod
      exact ⟨fun _ => ⟨_, hbound key hkey⟩, fun _ => ⟨_, hbound' key hkey⟩⟩
    · have hnone : ∀ m ∈ ms, ∀ method ∈ m.methods, key ∉ method.keys :=
        fun m hm method hmethod hmem => hkey ⟨m, hm, method, hmethod, hmem⟩
      rw [h.others key hnone, h'.others key hnone]
  simpa using hperm.length_eq

/-! ## Setting up -/

def registerEach (scopes : List (TypePath × ScopeName)) : Assemble PUnit :=
  forIn scopes PUnit.unit fun entry _ =>
    match entry with
    | (marker, name) => do
      registerScope marker (← newScope name)
      return .yield PUnit.unit

theorem registerEach_spec (scopes : List (TypePath × ScopeName)) (s : State) :
    ∃ u, registerEach scopes s = (.ok PUnit.unit, u) ∧ u.tables.bindings = s.tables.bindings := by
  induction scopes generalizing s with
  | nil => exact ⟨s, rfl, rfl⟩
  | cons first rest ih =>
    obtain ⟨marker, name⟩ := first
    obtain ⟨scope, t, hnew, ht⟩ : ∃ scope t, newScope name s = (.ok scope, t) ∧
        t.tables = s.tables := by
      cases name <;> exact ⟨_, _, rfl, rfl⟩
    obtain ⟨v, hregister, hv⟩ : ∃ v, registerScope marker scope t = (.ok (), v) ∧
        v.tables.bindings = t.tables.bindings := ⟨_, rfl, rfl⟩
    obtain ⟨u, hloop, hu⟩ := ih v
    refine ⟨u, ?_, by rw [hu, hv, ht]⟩
    unfold registerEach at hloop ⊢
    simp only [List.forIn_cons, run_bind, hnew, hregister, run_pure, hloop]

/-- Setting up registers the scopes and then installs the modules. -/
theorem setUp_eq (scopes : List (TypePath × ScopeName)) (ms : List Module) :
    setUp scopes ms = (do
      registerEach scopes
      installEach ms
      let count := (← get).tables.bindings.length
      Assemble.journal (Journal.info "注入器构建完成"
        [("modules", toString ms.length), ("bindings", toString count)])
      return count : Assemble Nat) := rfl

/-- **Setting up in any order.**  Modules no two of which bind from the same source are installed in
every order, or in none.  They are if no key is had by two methods, neither of one module nor of two;
then each method has its factory under all its keys, from its source and in its scope, no other key is
bound, and there are as many bindings, whatever the order.  Otherwise the set-up fails. -/
theorem setUp_any_order (happart : ms.Pairwise Module.SourcesApart)
    (scopes : List (TypePath × ScopeName)) (declarations : List (TypePath × Construction))
    (properties : PropertySource) (environment : Texts) :
    ∃ u, registerEach scopes (.initial declarations properties environment) = (.ok PUnit.unit, u) ∧
      u.tables.bindings = [] ∧
      ((Module.Compatible ms ∧ ∃ n, ∀ ms' : List Module, ms'.Perm ms →
          ∃ t, setUp scopes ms' (.initial declarations properties environment) = (.ok n, t) ∧
            u.InstallsAll ms t ∧ t.tables.bindings.length = n) ∨
        ¬ Module.Compatible ms ∧ ∀ ms' : List Module, ms'.Perm ms →
          ∃ cause t, setUp scopes ms' (.initial declarations properties environment) =
            (.error (.error cause), t)) := by
  obtain ⟨u, hscopes, hbindings⟩ :=
    registerEach_spec scopes (.initial declarations properties environment)
  have hnone : u.tables.bindings = [] := hbindings
  have hfree : ∀ m : Module, m.FreeIn u := by
    intro m method _ key _ existing hexisting
    obtain ⟨b, hb, -⟩ := source?_eq_some_iff.mp hexisting
    have hmem := (mem_of_binding? hb).1
    rw [hnone] at hmem
    cases hmem
  have hdistinct : u.Distinct := by
    unfold Distinct
    rw [hnone]
    exact List.nodup_nil
  -- In any order the loop is that of `installEach_spec`, for the same modules.
  have hloop : ∀ ms' : List Module, ms'.Perm ms →
      (Module.Compatible ms ∧ ∃ t, installEach ms' u = (.ok PUnit.unit, t) ∧ u.InstallsAll ms t) ∨
        ¬ Module.Compatible ms ∧ ∃ cause t, installEach ms' u = (.error (.error cause), t) := by
    intro ms' hperm
    rw [← Module.Compatible.perm_iff hperm]
    have happart' := (hperm.pairwise_iff fun h => h.symm).mpr happart
    refine (installEach_spec happart' fun m _ => hfree m).imp_left
      fun ⟨hcompatible, t, hrun, hall⟩ => ⟨hcompatible, t, hrun, hall.perm hperm⟩
  have hsetUp : ∀ {ms' : List Module} {t : State}, installEach ms' u = (.ok PUnit.unit, t) →
      ∃ log, setUp scopes ms' (.initial declarations properties environment) =
        (.ok t.tables.bindings.length, { t with journal := { t.journal with log } }) := by
    intro ms' t hrun
    refine ⟨t.journal.log ++ [{ level := .info, message := "注入器构建完成", fields :=
      [("modules", toString ms'.length), ("bindings", toString t.tables.bindings.length)] }], ?_⟩
    simp only [setUp_eq, run_bind, hscopes, hrun, run_get]
    rfl
  have hfails : ∀ {ms' : List Module} {stop : Stop} {t : State}, installEach ms' u = (.error stop, t) →
      setUp scopes ms' (.initial declarations properties environment) = (.error stop, t) := by
    intro ms' stop t hrun
    simp [setUp_eq, hscopes, hrun]
  refine ⟨u, hscopes, hnone, ?_⟩
  rcases hloop ms (.refl ms) with ⟨hcompatible, t, hrun, hall⟩ | ⟨hnot, -⟩
  · refine .inl ⟨hcompatible, t.tables.bindings.length, fun ms' hperm => ?_⟩
    rcases hloop ms' hperm with ⟨-, t', hrun', hall'⟩ | ⟨hnot, -⟩
    · have hkeys : ∀ {ms'' : List Module} {t'' : State}, installEach ms'' u = (.ok PUnit.unit, t'') →
          t''.Distinct := by
        intro ms'' t'' hrun''
        have hkept := keeps_installEach ms'' u hdistinct
        rw [hrun''] at hkept
        exact hkept
      have hlength := hall.length_eq hall' (hkeys hrun) (hkeys hrun')
      obtain ⟨log, hset⟩ := hsetUp hrun'
      rw [hlength] at hset
      exact ⟨_, hset, hall'.logged log, hlength⟩
    · exact absurd hcompatible hnot
  · refine .inr ⟨hnot, fun ms' hperm => ?_⟩
    rcases hloop ms' hperm with ⟨hcompatible, -⟩ | ⟨-, cause, t, hrun⟩
    · exact absurd hcompatible hnot
    · exact ⟨cause, t, hfails hrun⟩

end State

/-- A module with one singleton, of a type and under a name. -/
def Module.single (name : String) (type : TypePath) (label : String) : Module where
  name
  methods := [{
    method := "make"
    key := .of type
    aliases := [label]
    scope := some TypePath.singletonMarker
    recipe := { type, body := .literal (.component type) } }]

theorem Module.single_compatible_iff {name name' label label' : String} {type type' : TypePath} :
    Module.Compatible [.single name type label, .single name' type' label'] ↔
      ∀ key ∈ (Key.of type).candidates [label], key ∉ (Key.of type').candidates [label'] := by
  simp [Module.Compatible, Module.Disjoint, Module.KeysApart, Module.single, FactoryMethod.keys,
    List.Disjoint]

/-- Bells and horns are installed in both orders.  Two modules of bells are in none, whatever their
names. -/
theorem setUp_any_order_bells :
    let bells := Module.single "Bells" ⟨"Bell"⟩ "loud"
    let horns := Module.single "Horns" ⟨"Horn"⟩ "loud"
    let chimes := Module.single "Chimes" ⟨"Bell"⟩ "soft"
    (∃ u n, ∀ ms' : List Module, ms'.Perm [bells, horns] →
      ∃ t, setUp [] ms' (.initial [] {} []) = (.ok n, t) ∧ State.InstallsAll u [bells, horns] t) ∧
    ∀ ms' : List Module, ms'.Perm [bells, chimes] →
      ∃ cause t, setUp [] ms' (.initial [] {} []) = (.error (.error cause), t) := by
  intro bells horns chimes
  have happart : [bells, horns].Pairwise Module.SourcesApart ∧
      [bells, chimes].Pairwise Module.SourcesApart := by
    simp [Module.SourcesApart, Module.single, Module.sourceOf, bells, horns, chimes]
  constructor
  · obtain ⟨u, -, -, ⟨-, n, hall⟩ | ⟨hnot, -⟩⟩ := State.setUp_any_order happart.1 [] [] {} []
    · exact ⟨u, n, fun ms' hperm => (hall ms' hperm).imp fun t ht => ⟨ht.1, ht.2.1⟩⟩
    · refine absurd (Module.single_compatible_iff.mpr ?_) hnot
      decide
  · obtain ⟨u, -, -, ⟨hcompatible, -⟩ | ⟨-, hnone⟩⟩ := State.setUp_any_order happart.2 [] [] {} []
    · exact absurd (Module.single_compatible_iff.mp hcompatible) (by decide)
    · exact hnone

end ComponentAssembly

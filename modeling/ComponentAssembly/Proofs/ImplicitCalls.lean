import ComponentAssembly.Proofs.Redirection

/-!
# Calls among implicit bindings close no cycle

The static check is made when a key is bound.  A call of its factory later looks each dependency up
anew, and goes on with the first of its keys that is bound by then.  As long as that is what the check
goes on with, too, no key comes into progress twice:

    f.call t  does what  f.callImplicitly misjudges t  does, and fails by no cycle

(`Reachable.call_not_circular`).  The call that it is compared with halts at a dependency that is bound
on request, at a deferred one that is asked for, and where the check is wrong about a dependency
(`State.misjudges`).  Descents are followed from type to type, since the key under which a dependency
is bound may be another than the one that the check names.
-/

namespace ComponentAssembly

open Assemble Relation Stoppable

namespace State

/-! ## Types that depend on each other -/

/-- A type has an eager dependency on another that the check goes on with. -/
def TypeEdge (s : State) (maker : TypePath → TypePath) (a b : TypePath) : Prop :=
  ∃ p ∈ (s.declared (maker a)).eagerPoints, (s.checkedMaker p).isSome ∧ p.key.type = b

/-- Only finite descents start from a type. -/
def Grounded (s : State) (maker : TypePath → TypePath) (type : TypePath) : Prop :=
  Acc (fun b a => s.TypeEdge maker a b) type

section

variable {s t : State} {maker : TypePath → TypePath}

theorem BuiltBy.grounded_of_acc (h : s.BuiltBy maker) {u : Site}
    (hacc : Acc (fun v u => s.Edge u v) u) (hu : u.2 = s.declared (maker u.1.type)) :
    s.Grounded maker u.1.type := by
  induction hacc with
  | intro u _ ih =>
    refine Acc.intro _ fun b hb => ?_
    obtain ⟨p, hp, hsome, rfl⟩ := hb
    obtain ⟨m, hm⟩ := Option.isSome_iff_exists.mp hsome
    have hmaker := h.of_checkedMaker (s.points_declared_subset _ (List.mem_filter.mp hp).1) hm
    exact ih (p.key, s.declared m) ⟨p, hu ▸ hp, m, hm, rfl⟩ (by rw [hmaker])

theorem BuiltBy.acc_of_grounded (h : s.BuiltBy maker) {type : TypePath}
    (hgrounded : s.Grounded maker type) :
    ∀ key : Key, key.type = type → Acc (fun v u => s.Edge u v) (key, s.declared (maker type)) := by
  induction hgrounded with
  | intro type _ ih =>
    intro key _
    refine Acc.intro _ fun v hv => ?_
    obtain ⟨p, hp, m, hm, rfl⟩ := hv
    have hmaker := h.of_checkedMaker (s.points_declared_subset _ (List.mem_filter.mp hp).1) hm
    rw [hmaker]
    exact ih p.key.type ⟨p, hp, by simp [hm], rfl⟩ p.key rfl

/-- The check of a key passes exactly if only finite descents start from its type. -/
theorem BuiltBy.checkAcyclic_iff (h : s.BuiltBy maker) (key : Key) :
    s.checkAcyclic key (s.declared (maker key.type)) = .ok () ↔ s.Grounded maker key.type := by
  rcases s.checkAcyclic_total key (s.declared (maker key.type)) with
    ⟨hok, hcleared⟩ | ⟨cycle, herror, hcycle⟩
  · exact ⟨fun _ => h.grounded_of_acc (hcleared (h.uniform key) _ .refl) rfl, fun _ => hok⟩
  · constructor
    · intro hok
      rw [herror] at hok
      cases hok
    · intro hgrounded
      exact absurd (acyclicFrom_of_acc (h.acc_of_grounded hgrounded key rfl))
        (hcycle.not_acyclicFrom (h.uniform key))

theorem Evolves.checkedMaker (h : s.Evolves t) (p : InjectionPoint) :
    t.checkedMaker p = s.checkedMaker p :=
  checkedMaker_congr h.isExplicit h.constructions p

theorem Evolves.typeEdge (h : s.Evolves t) : t.TypeEdge maker = s.TypeEdge maker := by
  funext a b
  unfold TypeEdge
  simp only [h.declared, h.checkedMaker]

theorem Evolves.grounded (h : s.Evolves t) {type : TypePath} (hs : s.Grounded maker type) :
    t.Grounded maker type := by
  unfold Grounded
  rw [h.typeEdge]
  exact hs

theorem Evolves.builtBy (h : s.Evolves t) (hs : s.BuiltBy maker) : t.BuiltBy maker where
  carried := by
    have hpoints : t.declaredPoints = s.declaredPoints := by
      unfold declaredPoints
      rw [h.declarations]
    rw [hpoints]
    exact hs.carried
  registered := by
    unfold Tables.construction?
    rw [h.constructions]
    exact hs.registered

end

/-! ## What a dependency is resolved to -/

/-- Whether a dependency is looked up at a binding that was made on request. -/
def findsExplicit (s : State) (p : InjectionPoint) : Bool :=
  (s.chosen? p).any (·.origin.isExplicit)

/-- Whether a dependency is looked up at no binding, and there is nothing to make one from. -/
def findsNothing (s : State) (p : InjectionPoint) : Bool :=
  (s.chosen? p).isNone && (p.construction.or (s.tables.construction? p.key.type)).isNone

/-- Whether a dependency is looked up at an implicit binding, and the static check goes on with
another construction than that binding builds by, or with none. -/
def misjudges (s : State) (p : InjectionPoint) : Bool :=
  (s.chosen? p).any fun b =>
    !b.origin.isExplicit && b.factory.construction? != (s.checkedMaker p).map s.declared

/-- Where a dependency is looked up at no binding, the check does not find one either. -/
theorem checkedMaker_of_unbound {s : State} {p : InjectionPoint} (h : s.chosen? p = none) :
    s.checkedMaker p = p.construction.or (s.tables.construction? p.key.type) := by
  have hexplicit : p.candidates.any s.tables.isExplicit = false := by
    rw [List.any_eq_false]
    intro key hkey
    have hnone := List.findSome?_eq_none_iff.mp h key hkey
    simp [Tables.isExplicit, hnone]
  unfold checkedMaker
  rw [hexplicit]
  rfl

theorem checkedMaker_of_explicit {s : State} {p : InjectionPoint} (h : s.findsExplicit p) :
    s.checkedMaker p = none := by
  obtain ⟨b, hb, hexplicit⟩ := (Option.any_eq_true _ _).mp h
  obtain ⟨key, hmem, hbound⟩ := List.exists_of_findSome?_eq_some hb
  have hany : p.candidates.any s.tables.isExplicit :=
    List.any_eq_true.mpr ⟨key, hmem, by simpa [Tables.isExplicit, hbound] using hexplicit⟩
  unfold checkedMaker
  rw [if_pos hany]

theorem checkedMaker_of_implicit {s : State} {p : InjectionPoint} {b : Binding}
    (h : s.misjudges p = false) (hb : s.chosen? p = some b) (himplicit : b.origin = .implicit) :
    (s.checkedMaker p).map s.declared = b.factory.construction? := by
  unfold misjudges at h
  simp only [hb, Option.any_some, himplicit, Origin.isExplicit, Bool.not_false, Bool.true_and,
    bne_eq_false_iff_eq] at h
  exact h.symm

theorem origin_of_chosen? {s : State} {p : InjectionPoint} {b : Binding}
    (h : s.findsExplicit p = false) (hb : s.chosen? p = some b) : b.origin = .implicit := by
  unfold findsExplicit at h
  simp only [hb, Option.any_some] at h
  cases horigin : b.origin with
  | implicit => rfl
  | explicit source =>
    rw [horigin] at h
    cases h

/-- Unless it is wrong about a dependency, the static check stops there exactly if resolution finds a
binding made on request, or finds nothing. -/
theorem Wired.checkedMaker_eq_none_iff {s : State} (hs : s.Wired) {p : InjectionPoint}
    (h : s.misjudges p = false) :
    s.checkedMaker p = none ↔ s.findsExplicit p ∨ s.findsNothing p := by
  cases hb : s.chosen? p with
  | none =>
    have hmaker := checkedMaker_of_unbound hb
    simp [findsExplicit, findsNothing, hb, hmaker]
  | some b =>
    constructor
    · intro hnone
      by_contra hcontra
      have hexplicit : s.findsExplicit p = false := by
        simpa using fun h => hcontra (.inl h)
      have himplicit := origin_of_chosen? hexplicit hb
      obtain ⟨maker, hbuilds⟩ := hs.implicit b (mem_of_chosen? hb) himplicit
      have hsame := checkedMaker_of_implicit h hb himplicit
      rw [hnone, hbuilds.construction?_eq] at hsame
      cases hsame
    · rintro (hexplicit | hnothing)
      · exact checkedMaker_of_explicit hexplicit
      · simp [findsNothing, hb] at hnothing

/-- The static check stops only where resolution finds a binding made on request, or nothing, exactly
unless it is wrong about a dependency and stops there. -/
theorem Wired.stops_rightly_iff {s : State} (hs : s.Wired) (p : InjectionPoint) :
    (s.checkedMaker p = none → s.findsExplicit p ∨ s.findsNothing p) ↔
      (s.misjudges p → s.checkedMaker p ≠ none) := by
  cases hjudged : s.misjudges p with
  | false =>
    refine ⟨fun _ hfalse => ?_, fun _ => (hs.checkedMaker_eq_none_iff hjudged).mp⟩
    cases hfalse
  | true =>
    obtain ⟨b, hb, himplicit⟩ := (Option.any_eq_true _ _).mp hjudged
    have hneither : ¬ (s.findsExplicit p ∨ s.findsNothing p) := by
      rintro (hexplicit | hnothing)
      · simp [findsExplicit, hb] at hexplicit
        simp [hexplicit] at himplicit
      · simp [findsNothing, hb] at hnothing
    exact ⟨fun hstops _ hnone => hneither (hstops hnone), fun hgoes hnone => absurd hnone (hgoes rfl)⟩

theorem type_of_chosen? {s : State} {p : InjectionPoint} {b : Binding} (h : s.chosen? p = some b) :
    b.key.type = p.key.type := by
  obtain ⟨key, hmem, hb⟩ := List.exists_of_findSome?_eq_some h
  rw [(mem_of_binding? hb).2]
  rcases List.mem_cons.mp hmem with rfl | hmem
  · rfl
  · obtain ⟨name, -, rfl⟩ := List.mem_map.mp hmem
    rfl

end State

/-! ## Calls that halt -/

/-- The provider of a call among implicit bindings: it halts where a dependency is bound on request,
where a deferred one is asked for, and where `halts` says so.  `real` runs the factory of the
substitutor. -/
def Provider.implicit (halts : State → InjectionPoint → Bool)
    (real call : Factory → Assemble Instance) : Provider :=
  { Provider.of call with
    substitutor := currentSubstitutor real
    supply := fun p => do
      let s ← get
      if s.findsExplicit p || halts s p then throw .exhausted
      (Provider.of call).supply p
    ask := fun _ => throw .exhausted
    draw := fun _ _ => throw .exhausted }

/-- Runs a factory among implicit bindings, with at most so many calls nested in each other. -/
def callImplicitly (halts : State → InjectionPoint → Bool) : Nat → Factory → Assemble Instance
  | 0, _ => throw .exhausted
  | depth + 1, f => f.run (.implicit halts (callWithin depth) (callImplicitly halts depth))

/-- Runs a factory among implicit bindings. -/
def Factory.callImplicitly (halts : State → InjectionPoint → Bool) (f : Factory) :
    Assemble Instance := do
  ComponentAssembly.callImplicitly halts ((← get).depthFor f) f

/-- Whether a step stopped by a cycle. -/
def Stop.IsCycle (stop : Stop) : Prop :=
  ∃ chain, stop = .error (.circularDependency chain)

/-! ## Where a call has got to -/

/-- A type is the next on a descent: only finite ones start from it, and `path` leads from the keys in
progress to it. -/
structure State.Descent (path : (TypePath → TypePath → Prop) → TypePath → TypePath → Prop)
    (U : List Key) (maker : TypePath → TypePath) (s : State) (type : TypePath) : Prop where
  sound : s.Sound U
  built : s.BuiltBy maker
  grounded : s.Grounded maker type
  above : ∀ k ∈ s.inProgress, path (s.TypeEdge maker) k.type type

/-- A type is being built; its own key may be in progress. -/
abbrev State.Within (U : List Key) (maker : TypePath → TypePath) (s : State) (type : TypePath) : Prop :=
  s.Descent ReflTransGen U maker type

/-- A type is to be built next; all keys in progress depend on it. -/
abbrev State.Below (U : List Key) (maker : TypePath → TypePath) (s : State) (type : TypePath) : Prop :=
  s.Descent TransGen U maker type

section

variable {U : List Key} {maker : TypePath → TypePath} {s t : State}

theorem State.Descent.evolve {path : (TypePath → TypePath → Prop) → TypePath → TypePath → Prop}
    {type : TypePath} (h : s.Descent path U maker type) (ht : s.Leads U t) :
    t.Descent path U maker type where
  sound := ht.sound
  built := ht.evolves.builtBy h.built
  grounded := ht.evolves.grounded h.grounded
  above := by
    rw [ht.evolves.inProgress, ht.evolves.typeEdge]
    exact h.above

theorem State.Within.descend {a b : TypePath} (h : s.Within U maker a)
    (hedge : s.TypeEdge maker a b) : s.Below U maker b where
  sound := h.sound
  built := h.built
  grounded := h.grounded.inv hedge
  above k hk := .tail' (h.above k hk) hedge

/-- A key of a type that is to be built next is not in progress. -/
theorem State.Below.fresh {key : Key} (h : s.Below U maker key.type) : key ∉ s.inProgress :=
  fun hmem => not_transGen_of_acc h.grounded (h.above key hmem)

theorem State.Below.enter {key : Key} (h : s.Below U maker key.type) (hkey : key ∈ U) :
    State.Within U maker { s with inProgress := s.inProgress ++ [key] } key.type where
  sound := h.sound.enter h.fresh hkey
  built := ⟨h.built.carried, h.built.registered⟩
  grounded := h.grounded
  above := by
    intro k hk
    rcases List.mem_append.mp hk with hk | hk
    · exact (h.above k hk).to_reflTransGen
    · rw [List.mem_singleton.mp hk]

/-! ## Agreement -/

variable {E : Stop → Prop} {depth : Nat} {p q : Provider}

/-- A factory that builds a key agrees if what it asks for does once the key is in progress. -/
theorem builds_agree {key : Key} {f : Factory} (hs : s.Sound U) (hfresh : key ∉ s.inProgress)
    {c : Construction} (hf : f.Builds key c) (hadmits : s.Admits U f)
    (hp : p.enter = withGuard) (hq : q.enter = withGuard)
    (hasks : ∀ filling, State.Sound U { s with inProgress := s.inProgress ++ [key], filling } →
      p.Alike (State.Leads U { s with inProgress := s.inProgress ++ [key], filling }) E (· ∈ c.points)
        (fun _ => True) q) :
    AgreesAt (s.Leads U) (StopsBy E) (f.run p) (f.run q) s := by
  obtain ⟨kept, rfl, hkept⟩ := hf
  have hkey := (List.cons_subset.mp hadmits.keys).1
  have hentered := hs.enter hfresh hkey
  have hcore : ∀ filling, State.Sound U { s with inProgress := s.inProgress ++ [key], filling } →
      AgreesAt (State.Leads U { s with inProgress := s.inProgress ++ [key], filling }) (StopsBy E)
        ((Factory.construct key c).run p) ((Factory.construct key c).run q)
        { s with inProgress := s.inProgress ++ [key], filling } := by
    intro filling hs
    refine (hasks filling hs).run_core rfl (fun _ _ => trivial) ?_ _ (.refl hs)
    intro key' c' heq x hx
    cases heq
    exact hx
  simp only [Factory.run, hp, hq]
  refine withGuard_agrees hs (fun hmem => absurd hmem hfresh) fun _ => ?_
  cases hkept with
  | bare => exact hcore s.filling hentered
  | once cell =>
    obtain ⟨⟨owner, howner, hcell⟩, -⟩ := hadmits.tidy
    obtain rfl := Option.mem_some_iff.mp howner
    obtain ⟨hmem, hunfilled⟩ := hs.entered hfresh key rfl
    have hfilling := hentered.beginFilling hmem hcell
    exact once_agrees hentered (fun h => hunfilled cell h hcell) (hcore _ hfilling)
  | memo store key' => exact memo_agrees hentered (hcore s.filling hentered)

theorem implicit_supply (halts : State → InjectionPoint → Bool)
    (real call : Factory → Assemble Instance) (x : InjectionPoint) (s : State) :
    (Provider.implicit halts real call).supply x s =
      if s.findsExplicit x || halts s x then (.error .exhausted, s)
      else (Provider.of call).supply x s := by
  unfold Provider.implicit
  dsimp only
  rw [get_bind]
  split <;> rfl

theorem not_isCycle_exhausted : ¬ Stop.exhausted.IsCycle := by
  rintro ⟨chain, hchain⟩
  cases hchain

theorem not_isCycle_of_isPlain {cause : AssemblyError} (h : cause.IsPlain) :
    ¬ (Stop.error cause).IsCycle := by
  rintro ⟨chain, hchain⟩
  exact h chain (Stop.error.inj hchain)

/-- A dependency of a type that is being built is supplied as without a halt, or the supply halts. -/
theorem supply_agrees {call : Factory → Assemble Instance} {type : TypePath}
    (hs : s.Within U maker type)
    (hcall : ∀ (f : Factory) (t : State) (key : Key), s.Leads U t → t.Below U maker key.type →
      f.Builds key (t.declared (maker key.type)) → t.Admits U f →
      AgreesAt (t.Leads U) (StopsBy (¬ ·.IsCycle)) (call f) (callWithin depth f) t)
    {x : InjectionPoint} (hx : x ∈ (s.declared (maker type)).eagerPoints) :
    AgreesAt (s.Leads U) (StopsBy (¬ ·.IsCycle))
      ((Provider.implicit State.misjudges (callWithin depth) call).supply x)
      ((Provider.of (callWithin depth)).supply x) s := by
  have hrun := implicit_supply State.misjudges (callWithin depth) call x s
  have hdeclared : x ∈ s.declaredPoints := s.points_declared_subset _ (List.mem_filter.mp hx).1
  have hxU : x.key ∈ U := (State.knownKeys_subset_iff.mp hs.sound.known).2.1
    (s.keys_declared_subset _ (State.key_mem_keys hx))
  -- What is found is called below the type that is being built.
  have hfinish : ∀ (f : Factory) (t : State) (key : Key), s.Leads U t → t.Below U maker key.type →
      f.Builds key (t.declared (maker key.type)) → t.Admits U f →
      AgreesAt (s.Leads U) (StopsBy (¬ ·.IsCycle))
        (do return some (← call f) : Assemble (Option Instance))
        (do return some (← callWithin depth f) : Assemble (Option Instance)) t := by
    intro f t key ht hbelow hf hadmits
    refine AgreesAt.andThen (P := fun _ => True) ?_ fun i _ => .ok trivial
    exact (hcall f t key ht hbelow hf hadmits).mono (fun u hu => ht.trans hu) fun _ h => h
  split at hrun
  · exact .halted hrun (.refl hs.sound) not_isCycle_exhausted
  · next hgoes =>
    obtain ⟨hexplicit, hjudged⟩ : s.findsExplicit x = false ∧ s.misjudges x = false := by
      simpa using hgoes
    refine .of_eq hrun ?_
    cases hb : s.chosen? x with
    | some b =>
      -- the check goes on with what the binding was made of, one type further down
      have hmem := State.mem_of_chosen? hb
      have himplicit := State.origin_of_chosen? hexplicit hb
      obtain ⟨m', hbuilds⟩ := hs.sound.implicit b hmem himplicit
      have hchecked := State.checkedMaker_of_implicit hjudged hb himplicit
      rw [hbuilds.construction?_eq] at hchecked
      obtain ⟨m, hm, hsame⟩ := Option.map_eq_some_iff.mp hchecked
      obtain rfl := hs.built.of_checkedMaker hdeclared hm
      have hedge : s.TypeEdge maker type b.key.type :=
        ⟨x, hx, by simp [hm], (State.type_of_chosen? hb).symm⟩
      rw [← hsame, ← State.type_of_chosen? hb] at hbuilds
      refine .after (State.dependencyFactory_chosen hb) ?_
      exact hfinish _ s b.key (.refl hs.sound) (hs.descend hedge) hbuilds (hs.sound.admits hmem)
    | none =>
      have hunbound := State.dependencyFactory_unbound hb
      have hmaker := State.checkedMaker_of_unbound hb
      cases hm : s.checkedMaker x with
      | none =>
        rw [← hmaker, hm] at hunbound
        dsimp only at hunbound
        split at hunbound
        · exact .after hunbound (Agrees.ok trivial s (.refl hs.sound))
        · refine .stopped hunbound (.refl hs.sound) (not_isCycle_of_isPlain fun chain => by simp)
      | some m =>
        -- below a type that is being built there is no cycle, so the new binding passes its check
        rw [← hmaker, hm] at hunbound
        obtain rfl := hs.built.of_checkedMaker hdeclared hm
        have hbelow := hs.descend ⟨x, hx, by simp [hm], rfl⟩
        have hcheck := (hs.built.checkAcyclic_iff x.key).mpr hbelow.grounded
        obtain ⟨f, t, hok, hgains⟩ :=
          State.implicitFactory_ok hs.sound (State.unbound_of_chosen? hb) hxU hcheck
        have hfound : dependencyFactory x s = (.ok (some f), t) := by
          rw [hunbound]
          exact bind_ok hok
        refine .after hfound ?_
        refine hfinish f t x.key hgains.leads (hbelow.evolve hgains.leads) ?_ hgains.found.1
        rw [hgains.leads.evolves.declared]
        exact hgains.builds

/-- Within a type that is being built, what is asked for agrees if calls of what can be found do. -/
theorem implicit_alike {call : Factory → Assemble Instance} {type : TypePath}
    (hs : s.Within U maker type) (hdepth : U.dedup.length < depth + s.inProgress.length)
    (hcall : ∀ (f : Factory) (t : State) (key : Key), s.Leads U t → t.Below U maker key.type →
      f.Builds key (t.declared (maker key.type)) → t.Admits U f →
      AgreesAt (t.Leads U) (StopsBy (¬ ·.IsCycle)) (call f) (callWithin depth f) t) :
    (Provider.implicit State.misjudges (callWithin depth) call).Alike (s.Leads U) (¬ ·.IsCycle)
      (· ∈ (s.declared (maker type)).points) (fun _ => True) (Provider.of (callWithin depth)) where
  toLasting := State.leads_lasting fun x hx => (State.knownKeys_subset_iff.mp hs.sound.known).2.1
    (s.keys_declared_subset _ (List.mem_map.mpr ⟨x, hx, rfl⟩))
  plain cause hcause := not_isCycle_of_isPlain hcause
  substitutor := by
    intro t ht
    have hwatched : ∀ f, t.Admits U f → f.isGuarded →
        AgreesAt (t.Leads U) (StopsBy (· ≠ .exhausted))
          (callThrough (.watched U.dedup.length) depth f) (callWithin depth f) t := by
      intro f hadmits hf
      rw [← ht.evolves.inProgress] at hdepth
      exact callThrough_agrees (Nat.le_refl _) depth depth f t (Nat.le_refl _) ht.sound hadmits hdepth
        (.inl hf)
    have hagrees := substitutor_agrees (fun cause => by simp) ht.sound hwatched
    refine (hagrees.self fun r hr => ?_).mono (fun u hu => ht.trans hu) fun r hr => ?_
    · exact not_exhausted r (hr.mono (fun _ h => h) fun _ he => he.2)
    · exact hr.mono (fun _ h => h) fun _ he => absurd he.1 he.2
  supply := by
    intro x hx heager t ht
    have heager' : x ∈ (t.declared (maker type)).eagerPoints := by
      rw [ht.evolves.declared]
      exact List.mem_filter.mpr ⟨hx, heager⟩
    exact (supply_agrees (hs.evolve ht) (fun f u key hu => hcall f u key (ht.trans hu)) heager').mono
      (fun u hu => ht.trans hu) fun _ h => h
  ask _ _ _ ht := .halted rfl ht not_isCycle_exhausted
  draw _ _ _ _ ht := .halted rfl ht not_isCycle_exhausted

/-- **Calls.**  The factory of a key that is to be built next runs as without a halt and fails by no
cycle, or it halts. -/
theorem callImplicitly_agrees (depth : Nat) :
    ∀ (f : Factory) (s : State) (key : Key), s.Below U maker key.type →
      f.Builds key (s.declared (maker key.type)) → s.Admits U f →
      U.dedup.length < depth + s.inProgress.length →
      AgreesAt (s.Leads U) (StopsBy (¬ ·.IsCycle)) (callImplicitly State.misjudges depth f)
        (callWithin depth f) s := by
  induction depth with
  | zero =>
    intro f s key hs _ _ _
    exact .halted rfl (.refl hs.sound) not_isCycle_exhausted
  | succ depth ih =>
    intro f s key hs hf hadmits hdepth
    have hkey : key ∈ U := by
      obtain ⟨kept, rfl, -⟩ := hf
      exact hadmits.keys List.mem_cons_self
    have hentered := hs.enter hkey
    refine builds_agree hs.sound hs.fresh hf hadmits rfl rfl fun filling hsound => ?_
    have hwithin : State.Within U maker { s with inProgress := s.inProgress ++ [key], filling }
        key.type :=
      ⟨hsound, ⟨hs.built.carried, hs.built.registered⟩, hs.grounded, hentered.above⟩
    have hdepth' : U.dedup.length < depth + (s.inProgress ++ [key]).length := by
      rw [List.length_append, List.length_singleton]
      omega
    refine implicit_alike hwithin hdepth' fun f t key' ht hbelow hf hadmits => ?_
    refine ih f t key' hbelow hf hadmits ?_
    rw [ht.evolves.inProgress]
    exact hdepth'

end

/-! ## Calls from outside -/

/-- A key that is bound is so implicitly, by the construction of its type, and the static check would
let it be bound again. -/
def State.Vouches (s : State) (maker : TypePath → TypePath) (key : Key) : Prop :=
  ∀ b ∈ s.tables.binding? key, b.origin = .implicit ∧
    b.factory.construction? = some (s.declared (maker key.type)) ∧
      s.checkAcyclic key (s.declared (maker key.type)) = .ok ()

/-- What a lookup finds for a key that the state vouches for. -/
theorem getFactory_vouched {U : List Key} {maker : TypePath → TypePath} {s t : State}
    (hs : s.Sound U) (hbuilt : s.BuiltBy maker) {key : Key} (hkey : key ∈ U)
    (hvouches : s.Vouches maker key) {f : Factory} (hf : getFactory key s = (.ok f, t)) :
    s.Leads U t ∧ t.Admits U f ∧ f.Builds key (s.declared (maker key.type)) ∧
      s.Grounded maker key.type := by
  cases hb : s.tables.binding? key with
  | some b =>
    obtain ⟨himplicit, hconstruction, hcheck⟩ := hvouches b hb
    obtain ⟨hmem, rfl⟩ := State.mem_of_binding? hb
    obtain ⟨m, hbuilds⟩ := hs.implicit b hmem himplicit
    rw [hbuilds.construction?_eq] at hconstruction
    rw [Option.some.inj hconstruction] at hbuilds
    cases (State.getFactory_bound hb).symm.trans hf
    exact ⟨.refl hs, hs.admits hmem, hbuilds, (hbuilt.checkAcyclic_iff _).mp hcheck⟩
  | none =>
    have hunbound := State.getFactory_unbound hb
    cases hm : s.tables.construction? key.type with
    | none =>
      rw [hm, hf] at hunbound
      cases hunbound
    | some m =>
      rw [hm, hf] at hunbound
      dsimp only at hunbound
      obtain rfl := hbuilt.registered _ m hm
      rcases State.implicitFactory_spec hs (maker key.type) hb hkey with
        ⟨chain, -, hfail⟩ | ⟨hcheck, f', t', hok, hgains⟩
      · cases hunbound.trans hfail
      · cases hunbound.trans hok
        exact ⟨hgains.leads, hgains.found.1, hgains.builds, (hbuilt.checkAcyclic_iff _).mp hcheck⟩

/-- **Calls among implicit bindings.**  In every reachable state in which types are built alike, a key
that is vouched for is called with the result of the call that halts, which is no cycle, unless
that call halts: at a dependency that is bound on request, at a deferred one that is asked for, or where
the static check is wrong about a dependency.  Exactly unless it is wrong about a dependency at which
it stops, the check stops only where resolution finds a binding made on request, or nothing. -/
theorem Reachable.call_not_circular {s t : State} {held : List Factory} (h : Reachable s held)
    {maker : TypePath → TypePath} (hbuilt : s.BuiltBy maker) {key : Key} {f : Factory}
    (hf : getFactory key s = (.ok f, t)) (hvouches : s.Vouches maker key)
    (hhalts : stop? (f.callImplicitly State.misjudges t).1 ≠ some .exhausted) :
    f.call t = f.callImplicitly State.misjudges t ∧
      (∀ chain, (f.call t).1 ≠ .error (.error (.circularDependency chain))) ∧
        ∀ p, (t.checkedMaker p = none → t.findsExplicit p ∨ t.findsNothing p) ↔
          (t.misjudges p → t.checkedMaker p ≠ none) := by
  have hs := h.settled.sound (List.subset_append_left s.knownKeys [key])
  obtain ⟨ht, hadmits, hbuilds, hgrounded⟩ :=
    getFactory_vouched hs hbuilt (List.mem_append_right _ List.mem_cons_self) hvouches hf
  have hsettled := h.settled.leads ht
  have hbelow : t.Below (t.knownKeys ++ f.keys) maker key.type :=
    { sound := hsettled.sound (List.subset_append_left _ _)
      built := ht.evolves.builtBy hbuilt
      grounded := ht.evolves.grounded hgrounded
      above := by
        rw [hsettled.idle]
        intro k hk
        cases hk }
  rw [← ht.evolves.declared] at hbuilds
  have hdepth : (t.knownKeys ++ f.keys).dedup.length < t.depthFor f + t.inProgress.length := by
    have hlength := (List.dedup_sublist (t.knownKeys ++ f.keys)).length_le
    rw [List.length_append] at hlength
    unfold State.depthFor
    omega
  have hagrees := callImplicitly_agrees (t.depthFor f) f t key hbelow hbuilds
    ⟨List.subset_append_right _ _, hadmits.tidy⟩ hdepth
  have hsame : f.call t = f.callImplicitly State.misjudges t := hagrees.same hhalts
  refine ⟨hsame, fun chain hcircular => ?_, hsettled.stops_rightly_iff⟩
  have hresult : StopsBy (¬ ·.IsCycle) (f.call t).1 := hsame ▸ hagrees.result
  rw [hcircular] at hresult
  exact hresult ⟨chain, rfl⟩

/-! ## Two types that depend on each other -/

/-- A call of what is found for a key fails by no cycle if it stays among implicit bindings. -/
def State.ClosesNoCycle (s : State) (key : Key) : Prop :=
  ∀ (f : Factory) (t : State), getFactory key s = (.ok f, t) → t.tables.isExplicit key = false →
    stop? (f.callImplicitly (fun _ _ => false) t).1 ≠ some .exhausted →
      ∀ chain, (f.call t).1 ≠ .error (.error (.circularDependency chain))

theorem not_closesNoCycle {s : State} {key : Key} {chain : List Key}
    (hfound : stop? (getFactory key s).1 = none)
    (hexplicit : (getFactory key s).2.tables.isExplicit key = false)
    (hstays : stop? ((do (← getFactory key).callImplicitly fun _ _ => false) s).1 ≠ some .exhausted)
    (hcall : stop? (getInstance key s).1 = some (.error (.circularDependency chain))) :
    ¬ s.ClosesNoCycle key := by
  intro hcloses
  match hf : getFactory key s with
  | (.error stop, t) =>
    rw [hf] at hfound
    cases hfound
  | (.ok f, t) =>
    rw [hf] at hexplicit
    rw [bind_ok hf] at hstays
    have hrun : getInstance key s = f.call t := bind_ok hf
    rw [hrun] at hcall
    refine hcloses f t hf hexplicit hstays chain ?_
    match hr : (f.call t).1 with
    | .ok i =>
      rw [hr] at hcall
      cases hcall
    | .error stop =>
      rw [hr] at hcall
      cases hcall
      rfl

namespace Mutual

/-- One type depends on another, and that one on the first by some point. -/
def declarations (back : InjectionPoint) : List (TypePath × Construction) :=
  [(⟨"Alpha"⟩, { Construction.plain ⟨"Alpha"⟩ with parameters := [.dependency "beta" ⟨"Beta"⟩] }),
    (⟨"Beta"⟩, { Construction.plain ⟨"Beta"⟩ with parameters := [back] })]

def register (type : TypePath) : Request :=
  .registerConstruction type type

def lookUp (type : TypePath) : Request :=
  .getFactory (.of type)

/-- The dependency on the first type is put off, and the first type is bound already. -/
def deferred : State :=
  let back := { InjectionPoint.dependency "alpha" ⟨"Alpha"⟩ with deferred := true }
  let s := ((register ⟨"Alpha"⟩).run (.initial (declarations back) {} [])).2
  let s := ((register ⟨"Beta"⟩).run s).2
  ((lookUp ⟨"Alpha"⟩).run s).2

theorem deferred_reachable : ∃ held, Reachable deferred held :=
  ⟨_, (((Reachable.initial _ _ _).step (register ⟨"Alpha"⟩) trivial).step (register ⟨"Beta"⟩)
    trivial).step (lookUp ⟨"Alpha"⟩) trivial⟩

/-- A cycle that is put off does not stop a call. -/
theorem call_not_circular_deferred :
    deferred.Vouches id (.of ⟨"Alpha"⟩) ∧ ∃ f, getFactory (.of ⟨"Alpha"⟩) deferred = (.ok f, deferred) ∧
      stop? (f.call deferred).1 = none ∧
        f.call deferred = f.callImplicitly State.misjudges deferred := by
  have hbound : deferred.tables.binding? (.of ⟨"Alpha"⟩) = some
      { key := .of ⟨"Alpha"⟩
        factory := .guarded (.of ⟨"Alpha"⟩)
          (.construct (.of ⟨"Alpha"⟩) (deferred.declared ⟨"Alpha"⟩))
        origin := .implicit } := by
    rfl
  have hvouches : deferred.Vouches id (.of ⟨"Alpha"⟩) := by
    intro b hb
    cases hbound.symm.trans hb
    exact ⟨rfl, rfl, by decide +kernel⟩
  have hbuilt : deferred.BuiltBy id := .of_self (by decide +kernel) (by decide +kernel)
  obtain ⟨held, hreachable⟩ := deferred_reachable
  have hcall := hreachable.call_not_circular hbuilt (State.getFactory_bound hbound) hvouches
    (by decide +kernel)
  exact ⟨hvouches, _, State.getFactory_bound hbound, by decide +kernel, hcall.1⟩

/-- The first type is looked up before the second is registered. -/
def early : State :=
  let back := InjectionPoint.dependency "alpha" ⟨"Alpha"⟩
  let s := ((register ⟨"Alpha"⟩).run (.initial (declarations back) {} [])).2
  let s := ((lookUp ⟨"Alpha"⟩).run s).2
  ((register ⟨"Beta"⟩).run s).2

/-- A key that was bound early is not vouched for any more: the call of it meets a cycle. -/
example : stop? (getInstance (.of ⟨"Alpha"⟩) early).1 =
    some (.error (.circularDependency [.of ⟨"Beta"⟩, .of ⟨"Alpha"⟩, .of ⟨"Beta"⟩])) := by
  decide +kernel

/-- The dependency on the first type may be had under a name as well, and the name is bound on request.
The first type is bound while the check stops at the name. -/
def aliased : State :=
  let s := (Aliased.bindName.run (.initial (declarations Aliased.point) {} [])).2
  let s := ((register ⟨"Alpha"⟩).run s).2
  let s := ((register ⟨"Beta"⟩).run s).2
  ((lookUp ⟨"Alpha"⟩).run s).2

theorem aliased_reachable : ∃ held, Reachable aliased held :=
  ⟨_, ((((Reachable.initial _ _ _).step Aliased.bindName (.inr rfl)).step (register ⟨"Alpha"⟩)
    trivial).step (register ⟨"Beta"⟩) trivial).step (lookUp ⟨"Alpha"⟩) trivial⟩

theorem aliased_builtBy : aliased.BuiltBy id :=
  .of_self (by decide +kernel) (by decide +kernel)

/-- A call does close a cycle among implicit bindings: the check stops at the name, but resolution finds
the first type. -/
theorem not_reachable_closesNoCycle :
    ¬ ∀ (s : State) (held : List Factory) (maker : TypePath → TypePath) (key : Key),
      Reachable s held → s.BuiltBy maker → s.ClosesNoCycle key := by
  intro hclaim
  obtain ⟨held, hreachable⟩ := aliased_reachable
  have hcall : stop? (getInstance (.of ⟨"Beta"⟩) aliased).1 =
      some (.error (.circularDependency [.of ⟨"Beta"⟩, .of ⟨"Alpha"⟩, .of ⟨"Beta"⟩])) := by
    decide +kernel
  have hcircular := not_closesNoCycle (by decide +kernel) (by decide +kernel) (by decide +kernel) hcall
  exact hcircular (hclaim aliased held id _ hreachable aliased_builtBy)

end Mutual

end ComponentAssembly

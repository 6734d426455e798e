import ComponentAssembly.Proofs.LazyLookups
import ComponentAssembly.Proofs.Observation

/-!
# Singletons

A factory in the scope of singletons keeps its first instance in a cell.  However deep they are
nested, all steps of a run are as `Observer.singleton` expects them (`Reachable.singleton_kept`):

    an attempt   is made by the one factory under the scope; it begins and ends with the cell empty
    a call       gives what is in the cell, or else attempts to fill it; no failure is kept
    a use        gives what is in the cell in the end
    a point      with such a dependency is resolved to what is in the cell in the end

All attempts that succeed are one, and what it makes is in the cell from then on.  A cell begins fresh
and empty, with the keys that lead to it (`State.Begins`).
-/

namespace ComponentAssembly

open Assemble Stoppable

namespace Factory

/-- The cell in which a factory keeps its instance, and the factory that makes the instance. -/
def kept? : Factory → Option (Nat × Factory)
  | guarded _ inner => inner.kept?
  | once cell inner => some (cell, inner)
  | memo .. => none
  | constant _ => none
  | recipe .. => none
  | method .. => none
  | construct .. => none

/-- The keys that a factory guards before anything else. -/
def guards : Factory → List Key
  | guarded key inner => key :: inner.guards
  | _ => []

/-- No key that a factory guards is in progress, and none is guarded twice. -/
def CanEnter (f : Factory) (s : State) : Prop :=
  f.guards.Nodup ∧ ∀ key ∈ f.guards, key ∉ s.inProgress

theorem mem_cells_of_kept? {f inner : Factory} {cell : Nat} (h : f.kept? = some (cell, inner)) :
    (cell, inner) ∈ f.cells := by
  induction f with
  | guarded key g ih => exact ih h
  | once c g _ =>
    cases h
    exact List.mem_cons_self
  | memo _ _ _ _ => cases h
  | constant _ => cases h
  | recipe _ _ => cases h
  | method _ _ => cases h
  | construct _ _ => cases h

end Factory

/-! ## One call -/

/-- What a call does of a factory that keeps in a cell what a step makes. -/
structure State.Serves (s : State) (f : Factory) (cell : Nat) (make : Assemble Instance)
    (r : Except Stop Instance) (t : State) : Prop where
  /-- A full cell gives its instance. -/
  full : ∀ i, s.cell? cell = some i → t = s ∧ (f.CanEnter s → r = .ok i)
  /-- An empty cell is attempted to be filled, unless the call is part of such an attempt. -/
  empty : s.cell? cell = none → cell ∉ s.filling → f.CanEnter s →
    r = (make { s with
      inProgress := s.inProgress ++ f.guards
      filling := s.filling ++ [cell] }).1
  /-- What is given is in the cell then. -/
  given : ∀ i, r = .ok i → t.cell? cell = some i
  /-- A failure is not kept. -/
  failed : ∀ stop, r = .error stop → t.cell? cell = s.cell? cell

section

variable {provider : Provider} {f inner : Factory} {cell : Nat} {s : State}

/-- An attempt to fill a cell leaves it empty, and it stays so if the attempt fails. -/
theorem keepIn_attempt {make : Assemble Instance} (hmake : Growing make)
    (hempty : s.cell? cell = none) (hfresh : cell ∉ s.filling) {r : Except Stop Instance} {t : State}
    (hrun : make { s with filling := s.filling ++ [cell] } = (r, t)) :
    t.cell? cell = none ∧ ∃ u, keepIn cell make s = (r, u) ∧ t.Before u ∧
      (∀ other, other ≠ cell → u.cell? other = t.cell? other) ∧
        match r with
        | .ok i => cell < s.cells.length → u.cell? cell = some i
        | .error _ => u.cell? cell = none := by
  have hgrows := hmake { s with filling := s.filling ++ [cell] }
  rw [hrun] at hgrows
  have hbusy : t.cell? cell = none := by
    rw [hgrows.busy cell (List.mem_append_right _ (List.mem_singleton.mpr rfl))]
    exact hempty
  refine ⟨hbusy, ?_⟩
  cases r with
  | error stop =>
    exact ⟨_, keepIn_failed hempty hfresh hrun, fun _ _ hi => hi, fun _ _ => rfl, hbusy⟩
  | ok i =>
    have hothers : ∀ other, other ≠ cell → (State.fillCell cell i t).2.cell? other = t.cell? other :=
      fun other hne => t.cell?_fillCell_of_ne i hne
    refine ⟨_, keepIn_filled hempty hfresh hrun, fun other j hj => ?_, hothers, fun hcell => ?_⟩
    · have hne : other ≠ cell := by
        rintro rfl
        rw [hbusy] at hj
        cases hj
      exact (hothers other hne).trans hj
    · exact t.cell?_fillCell i (Nat.lt_of_lt_of_le hcell hgrows.cells)

theorem keepIn_serves {make : Assemble Instance} (hmake : Growing make)
    (hcell : cell < s.cells.length) :
    s.Serves (.once cell inner) cell make (keepIn cell make s).1 (keepIn cell make s).2 := by
  cases hempty : s.cell? cell with
  | some i =>
    rw [keepIn_full hempty]
    refine ⟨fun j hj => ⟨rfl, fun _ => ?_⟩, fun hnone => ?_, fun j hj => ?_, fun _ _ => rfl⟩
    · cases hempty.symm.trans hj
      rfl
    · cases hempty.symm.trans hnone
    · cases hj
      exact hempty
  | none =>
    have hfull : ∀ {P : Prop} (i : Instance), s.cell? cell = some i → P := fun i hi => by
      cases hempty.symm.trans hi
    by_cases hbusy : cell ∈ s.filling
    · rw [keepIn_busy hempty hbusy]
      exact ⟨fun i hi => hfull i hi, fun _ hfresh => absurd hbusy hfresh, fun i hi => (by cases hi),
        fun _ _ => rfl⟩
    · cases hrun : make { s with filling := s.filling ++ [cell] } with
      | mk r t =>
        obtain ⟨-, u, hkeep, -, -, hcellu⟩ := keepIn_attempt hmake hempty hbusy hrun
        rw [hkeep]
        refine ⟨fun i hi => hfull i hi, fun _ _ _ => ?_, fun i hi => ?_, fun stop hstop => ?_⟩
        · simp only [Factory.guards, List.append_nil]
          rw [hrun]
        · cases hi
          exact hcellu hcell
        · cases hstop
          exact hcellu.trans hempty.symm

/-- A call serves the instance of the cell, whatever state it starts from. -/
theorem run_serves (henter : provider.enter = withGuard) (hinner : Growing (inner.run provider))
    (hkept : f.kept? = some (cell, inner)) (hcell : cell < s.cells.length) :
    s.Serves f cell (inner.run provider) (f.run provider s).1 (f.run provider s).2 := by
  induction f generalizing s with
  | guarded key g ih =>
    have hrun : (Factory.guarded key g).run provider = withGuard key (g.run provider) := by
      simp only [Factory.run, henter]
    rw [hrun]
    cases hchain : cycleChain s.inProgress key with
    | some chain =>
      have hstopped : ¬ (Factory.guarded key g).CanEnter s := fun hcan =>
        hcan.2 key List.mem_cons_self (cycleChain_eq_some hchain).1
      rw [withGuard_circular hchain]
      exact ⟨fun i _ => ⟨rfl, fun hcan => absurd hcan hstopped⟩,
        fun _ _ hcan => absurd hcan hstopped, fun i hi => (by cases hi), fun _ _ => rfl⟩
    | none =>
      rw [withGuard_entered hchain]
      have hcan : (Factory.guarded key g).CanEnter s →
          g.CanEnter { s with inProgress := s.inProgress ++ [key] } := by
        rintro ⟨hdistinct, hfree⟩
        obtain ⟨hnotmem, hdistinct⟩ := List.nodup_cons.mp hdistinct
        refine ⟨hdistinct, fun k hk hmem => ?_⟩
        rcases List.mem_append.mp hmem with hmem | hmem
        · exact hfree k (List.mem_cons_of_mem _ hk) hmem
        · exact hnotmem (List.mem_singleton.mp hmem ▸ hk)
      obtain ⟨hfull, hempty, hgiven, hfailed⟩ :=
        ih (s := { s with inProgress := s.inProgress ++ [key] }) hkept hcell
      refine ⟨fun i hi => ?_, fun hnone hfresh henters => ?_, hgiven, hfailed⟩
      · obtain ⟨hsame, hresult⟩ := hfull i hi
        refine ⟨?_, fun henters => hresult (hcan henters)⟩
        dsimp only
        rw [hsame]
        simp
      · dsimp only
        rw [hempty hnone hfresh (hcan henters)]
        simp only [Factory.guards, List.append_assoc, List.singleton_append]
  | once c g _ =>
    cases hkept
    exact keepIn_serves hinner hcell
  | memo _ _ _ _ => cases hkept
  | constant _ => cases hkept
  | recipe _ _ => cases hkept
  | method _ _ => cases hkept
  | construct _ _ => cases hkept

end

/-! ## What is expected of singletons -/

/-- What is expected of the factories that keep their instance in a cell, if one attempt to fill it
succeeds, and the run ends in a state. -/
def Observer.singleton (held : List Factory) (cell : Nat) (x : Success) (z : State) : Observer where
  call f s r t := ∀ inner, f.kept? = some (cell, inner) →
    (∃ depth, s.Serves f cell (inner.run (Provider.of (callWithin depth))) r t) ∧
      ∀ i, r = .ok i → z.cell? cell = some i
  attempt c inner s r t := c = cell →
    (∀ f, s.Has held f → ∀ other, f.kept? = some (cell, other) → other = inner) ∧
      s.cell? cell = none ∧ t.cell? cell = none ∧
        ∀ i, r = .ok i → (s = x.start ∧ t = x.finish) ∧ z.cell? cell = some i
  use u s i := ∀ f inner, (u.find s).1 = .ok (some f) → f.kept? = some (cell, inner) →
    z.cell? cell = some i

/-! ## Injected dependencies -/

/-- A dependency that is not put off is resolved to the instance that is supplied, or is absent if
none is. -/
theorem resolvePoint_dependency (given : Provider) {p : InjectionPoint}
    (hsource : p.source = .dependency) (hnow : p.deferred = false) (f : Focus) (s : State) :
    ∃ context, resolvePoint given p f s = match given.supply p s with
      | (.ok (some i), t) => ((.ok (.object i), { f with context }), t)
      | (.ok none, t) => ((.ok .absent, { f with context }), t)
      | (.error stop, t) => ((.error stop, f), t) := by
  have hrun := resolvePoint_apart given f s (Visit.visit?_eq_none_iff.mpr hsource)
  rw [resolveDependency_supplied given f.context s hnow] at hrun
  cases hsupply : given.supply p s with
  | mk r t =>
    rw [hsupply] at hrun
    match r with
    | .error stop => exact ⟨f.context, hrun⟩
    | .ok none => exact ⟨_, hrun⟩
    | .ok (some i) => exact ⟨_, hrun⟩

/-- The takes of an argument get an instance itself, if they ask for its type. -/
structure Argument.HandsOn (argument : Argument) (i : Instance) : Prop where
  one : ∀ given path s, takeOne given path argument i.type s = (.ok i, s)
  all : ∀ path s, takeAll path argument i.type s = (.ok [i], s)

theorem Argument.object_handsOn (i : Instance) : (Argument.object i).HandsOn i where
  one given path s := by simp [takeOne, Instance.downcast]
  all path s := by simp [takeAll, Instance.downcast]

/-- Under observation, a dependency whose factory keeps its instance in the cell is resolved to what is
in the cell in the end. -/
theorem Observer.injected_kept {held : List Factory} {cell : Nat} {x : Success} {z : State}
    {call : Factory → Assemble Instance} {p : InjectionPoint} {f f' : Focus} {s t : State}
    {argument : Argument} {g inner : Factory} (hsource : p.source = .dependency)
    (hnow : p.deferred = false)
    (hresolved : resolvePoint ((Observer.singleton held cell x z).provider call) p f s =
      ((.ok argument, f'), t))
    (hfound : (dependencyFactory p s).1 = .ok (some g)) (hkept : g.kept? = some (cell, inner)) :
    ∃ i, z.cell? cell = some i ∧ argument = .object i := by
  obtain ⟨context, hpoint⟩ := resolvePoint_dependency
    ((Observer.singleton held cell x z).provider call) hsource hnow f s
  rw [hpoint] at hresolved
  cases hsupply : ((Observer.singleton held cell x z).provider call).supply p s with
  | mk r u =>
    rw [hsupply] at hresolved
    simp only [Observer.provider, Observer.supply] at hsupply
    match r with
    | .error stop => cases hresolved
    | .ok none =>
      -- the factory is there, so what it gives is supplied
      obtain ⟨u', hrun⟩ : ∃ u', dependencyFactory p s = (.ok (some g), u') := ⟨_, Prod.ext hfound rfl⟩
      have hcalled := (expecting_ok hsupply).1
      simp only [run_bind, hrun] at hcalled
      split at hcalled <;> cases hcalled
    | .ok (some i) =>
      cases hresolved
      exact ⟨i, (expecting_ok hsupply).2 i rfl g inner hfound hkept, rfl⟩

/-! ## Questions to an injector -/

theorem found_of_map {m : Assemble Factory} {f : Factory} {s : State}
    (h : ((some <$> m : Assemble (Option Factory)) s).1 = .ok (some f)) : ∃ t, m s = (.ok f, t) := by
  cases hrun : m s with
  | mk r t =>
    cases r with
    | error stop => simp [hrun] at h
    | ok g =>
      simp only [run_map, hrun] at h
      cases h
      exact ⟨t, rfl⟩

theorem State.Discovers.of_run {m : Assemble Factory} {f : Factory} {s t : State}
    (h : s.Discovers m) (hrun : m s = (.ok f, t)) : s.Grows t ∧ t.Knows f := by
  obtain ⟨hgrows, hknows⟩ := h
  rw [hrun] at hgrows hknows
  exact ⟨hgrows, hknows f rfl⟩

section

variable {cell : Nat} {z : State} {saved held : List Factory}
  {call : Success → Factory → Assemble Instance} {call' : Factory → Assemble Instance}

/-- Calls of factories at hand are the same under observation, and give what their cell keeps. -/
structure CallsSame (cell : Nat) (z : State) (held : List Factory)
    (call : Success → Factory → Assemble Instance) (call' : Factory → Assemble Instance) : Prop where
  grows : ∀ f, Growing (call' f)
  same : ∀ f s, s.Coherent held → s.Has held f → SameAt cell z (call · f) (call' f) s
  gives : ∀ f inner s i, s.Coherent held → s.Has held f → f.kept? = some (cell, inner) →
    (call' f s).1 = .ok i → (call' f s).2.cell? cell = some i

namespace CallsSame

variable (h : CallsSame cell z held call call')
include h

section

variable {s : State} (hs : s.Coherent held)
include hs

theorem ask (key : Key) :
    SameAt cell z (fun x => (Observer.singleton saved cell x z).ask (call x) key)
      ((Provider.of call').ask key) s := by
  refine .expecting (.found (s.getFactory_discovers key) (fun f t ht hf =>
    h.same f t (ht.coherent held hs) (.inr hf)) h.grows) ?_
  intro hz x i hi f inner hfind hkept
  obtain ⟨t, hrun⟩ := found_of_map hfind
  obtain ⟨ht, hf⟩ := (s.getFactory_discovers key).of_run hrun
  have hcall : (Provider.of call').ask key s = call' f t := bind_ok hrun
  rw [hcall] at hi hz
  exact hz cell i (h.gives f inner t i (ht.coherent held hs) (.inr hf) hkept hi)

theorem pull (supplier : Supplier) :
    SameAt cell z (fun x => (Observer.singleton saved cell x z).pull (call x) supplier)
      (Assemble.pull call' supplier) s := by
  refine .expecting ?_ ?_
  · simp only [pull_eq]
    refine .found (s.factoryOf_discovers supplier) (fun f t ht hf => ?_) fun f => ?_
    · exact .andThen (h.same f t (ht.coherent held hs) (.inr hf)) (h.grows f t).contents
        (fun _ _ _ => .refl _) fun _ => .ofExcept _
    · exact .andThen (h.grows f) fun _ => .ofExcept _
  · intro hz x i hi f inner hfind hkept
    obtain ⟨t, hrun⟩ := found_of_map hfind
    obtain ⟨ht, hf⟩ := (s.factoryOf_discovers supplier).of_run hrun
    rw [pull_eq, bind_ok hrun] at hi hz
    have hgives := h.gives f inner t
    cases hcall : call' f t with
    | mk r u =>
      rw [hcall] at hgives
      cases r with
      | error stop => simp [hcall] at hi
      | ok j =>
        rw [bind_ok hcall] at hi hz
        unfold Instance.downcast at hi hz
        split at hi
        · next htype =>
          cases hi
          rw [if_pos htype] at hz
          exact hz cell i (hgives i (ht.coherent held hs) (.inr hf) hkept rfl)
        · cases hi

theorem draw (p : InjectionPoint) (type : TypePath) :
    SameAt cell z
      (fun x => ((Observer.singleton saved cell x z).provider (call x)).draw (.dependency p) type)
      ((Provider.of call').draw (.dependency p) type) s := by
  have hnew : s.Grows { s with suppliers := s.suppliers ++ [{ lookup := .dependency p }] } :=
    s.grows_newSupplier fun f hf => by cases hf
  refine .andThen (.refl _) hnew.contents (fun supplier t hrun => ?_)
    fun supplier => .pull h.grows supplier
  cases hrun
  exact h.pull (hnew.coherent held hs) _

theorem supply (p : InjectionPoint) :
    SameAt cell z (fun x => (Observer.singleton saved cell x z).supply (call x) p)
      ((Provider.of call').supply p) s := by
  obtain ⟨hgrows, hknows⟩ := s.dependencyFactory_discovers p
  refine .expecting ?_ ?_
  · refine .andThen (.refl _) hgrows.contents (fun found t hrun => ?_) fun found => ?_
    · rw [hrun] at hgrows hknows
      cases found with
      | none => exact .refl _
      | some f =>
        exact .andThen (h.same f t (hgrows.coherent held hs) (.inr (hknows f rfl)))
          (h.grows f t).contents (fun _ _ _ => .refl _) fun _ => .ok _
    · cases found with
      | none => exact .ok none
      | some f => exact .andThen (h.grows f) fun _ => .ok _
  · intro hz x i hi f inner hfind hkept
    cases hrun : dependencyFactory p s with
    | mk found t =>
      simp only [Use.find, hrun] at hfind
      subst hfind
      rw [hrun] at hgrows hknows
      have hsupply : (Provider.of call').supply p s =
          (do return some (← call' f) : Assemble (Option Instance)) t := bind_ok hrun
      rw [hsupply] at hi hz
      have hgives := h.gives f inner t
      cases hcall : call' f t with
      | mk r u =>
        rw [hcall] at hgives
        cases r with
        | error stop => simp [hcall] at hi
        | ok j =>
          rw [bind_ok hcall] at hi hz
          cases hi
          exact hz cell i (hgives i (hgrows.coherent held hs) (.inr (hknows f rfl)) hkept rfl)

theorem substitutor :
    SameAt cell z (fun x => ((Observer.singleton saved cell x z).provider (call x)).substitutor)
      (Provider.of call').substitutor s := by
  refine .read ?_
  cases hf : s.factory? Substitutor.key with
  | none => exact .refl _
  | some f =>
    obtain ⟨b, hb, rfl⟩ := Option.map_eq_some_iff.mp hf
    have hgrows := Growing.andThen (h.grows b.factory) fun i =>
      Growing.ofExcept (i.downcast TypePath.substitutor Substitutor.name)
    have hcall := (h.same b.factory s hs (.inr (State.knows_of_binding? hb))).andThen
      (β := Instance) (h.grows b.factory s).contents (fun i t _ =>
        .refl (ofExcept (i.downcast TypePath.substitutor Substitutor.name))) fun _ => .ofExcept _
    refine (hcall.attempt (hgrows s).contents).andThen (hgrows.attempt s).contents
      (fun _ _ _ => .refl _) fun result => ?_
    cases result with
    | ok i =>
      dsimp only
      split <;> exact .ok _
    | error cause => exact .andThen (.journal _) fun _ => .ok none

end

/-- Programs are the same under observation if the calls of factories at hand are. -/
theorem program {α : Type} [inst : Stoppable α] {Q : α → Prop} {m : Provider → StateM State α}
    (hm : Program .free Q m) :
    ∀ s, s.Coherent held →
      SameAt cell z (fun x => m ((Observer.singleton saved cell x z).provider (call x)))
        (m (Provider.of call')) s := by
  induction hm with
  | pure _ => exact fun s _ => .refl _
  | bind hm hf _ ih ihf =>
    intro s hs
    obtain ⟨hgrows, hresult⟩ :=
      Program.keeps s.grows_keeps (Growing.provider_keeps h.grows s) hm s (.refl s)
    exact .bind (ih s hs) hgrows.contents (ihf _ hresult _ (hgrows.coherent held hs))
      (Growing.program h.grows (hf _ hresult) _).contents
  | after hstep hf ihf =>
    intro s hs
    obtain ⟨hgrows, hresult⟩ := hstep.keeps s.grows_keeps s (.refl s)
    exact .bind (.refl _) hgrows.contents (ihf _ hresult _ (hgrows.coherent held hs))
      (Growing.program h.grows (hf _ hresult) _).contents
  | look _ _ ihf => exact fun s hs => .get (ihf s trivial s hs)
  | substitutor => exact fun s hs => h.substitutor hs
  | supply _ _ => exact fun s hs => h.supply hs _
  | ask _ => exact fun s hs => h.ask hs _
  | draw _ type => exact fun s hs => h.draw hs _ type

end CallsSame

/-! ## Calls -/

/-- A step that attempts to fill another cell. -/
theorem SameAt.keepIn_other {m : Success → Assemble Instance} {n : Assemble Instance} {s : State}
    {other : Nat} (hother : cell ≠ other) (hn : Growing n)
    (h : SameAt cell z m n { s with filling := s.filling ++ [other] }) :
    SameAt cell z (fun x => keepIn other (m x)) (keepIn other n) s := by
  cases hempty : s.cell? other with
  | some i =>
    refine .of_forall fun x => ?_
    rw [keepIn_full hempty, keepIn_full hempty]
  | none =>
    by_cases hbusy : other ∈ s.filling
    · refine .of_forall fun x => ?_
      rw [keepIn_busy hempty hbusy, keepIn_busy hempty hbusy]
    · cases hrun : n { s with filling := s.filling ++ [other] } with
      | mk r t =>
        obtain ⟨-, u, hkeep, hbefore, hothers, -⟩ := keepIn_attempt hn hempty hbusy hrun
        intro hz
        rw [hkeep] at hz
        obtain ⟨hall, x, hx⟩ := h (by rw [hrun]; exact hbefore.trans hz)
        refine ⟨fun hends x => keepIn_same (hall ?_ x), x, keepIn_same hx⟩
        rw [hkeep] at hends
        rw [hrun]
        exact hends.imp_right fun hnone => (hothers cell hother).symm.trans hnone

/-- A step that attempts to fill the cell. -/
theorem SameAt.keepIn_own {m : Success → Assemble Instance} {n : Assemble Instance} {s : State}
    {expected : Success → State → Except Stop Instance → State → Prop} (hn : Growing n)
    (hcell : cell < s.cells.length)
    (h : SameAt cell z m n { s with filling := s.filling ++ [cell] })
    (hexpected : ∀ x r t, s.cell? cell = none → t.cell? cell = none →
      (∀ i, r = .ok i → ({ s with filling := s.filling ++ [cell] } = x.start ∧ t = x.finish) ∧
        z.cell? cell = some i) →
      expected x { s with filling := s.filling ++ [cell] } r t) :
    SameAt cell z (fun x => keepIn cell (Assemble.expecting (expected x) (m x))) (keepIn cell n) s := by
  cases hempty : s.cell? cell with
  | some i =>
    refine .of_forall fun x => ?_
    rw [keepIn_full hempty, keepIn_full hempty]
  | none =>
    by_cases hbusy : cell ∈ s.filling
    · refine .of_forall fun x => ?_
      rw [keepIn_busy hempty hbusy, keepIn_busy hempty hbusy]
    · cases hrun : n { s with filling := s.filling ++ [cell] } with
      | mk r t =>
        obtain ⟨hbusyt, u, hkeep, hbefore, -, hcellu⟩ := keepIn_attempt hn hempty hbusy hrun
        -- if the attempt itself is the same and as expected, so is the whole step
        have hsame : ∀ x, m x { s with filling := s.filling ++ [cell] } =
            n { s with filling := s.filling ++ [cell] } →
              expected x { s with filling := s.filling ++ [cell] } r t →
                keepIn cell (Assemble.expecting (expected x) (m x)) s = keepIn cell n s := by
          intro x hx hexp
          refine keepIn_same ?_
          unfold Assemble.expecting
          rw [hx, hrun]
          exact if_pos hexp
        intro hz
        rw [hkeep] at hz ⊢
        obtain ⟨hall, -⟩ := h (by rw [hrun]; exact hbefore.trans hz)
        have hall := hall (.inr (by rw [hrun]; exact hbusyt))
        rw [← hkeep]
        cases r with
        | error stop =>
          have hevery := fun x => hsame x (hall x)
            (hexpected x _ t hempty hbusyt fun i hi => by cases hi)
          exact ⟨fun _ => hevery, default, hevery default⟩
        | ok i =>
          -- the cell is full afterwards, so this is the attempt that succeeds
          have hfilled : u.cell? cell = some i := hcellu hcell
          refine ⟨fun hends => ?_, ⟨{ s with filling := s.filling ++ [cell] }, t⟩, ?_⟩
          · rw [hkeep] at hends
            rcases hends with hfull | hnone
            · exact absurd hempty hfull
            · cases hfilled.symm.trans hnone
          · refine hsame _ (hall _) (hexpected _ _ t hempty hbusyt fun j hj => ?_)
            cases hj
            exact ⟨⟨rfl, rfl⟩, hz cell i hfilled⟩

/-- The cells of a factory are there, and each keeps the instance of one factory only. -/
def State.Suits (s : State) (held : List Factory) (f : Factory) : Prop :=
  ∀ kept ∈ f.cells, kept.1 < s.cells.length ∧
    ∀ g, s.Has held g → ∀ kept' ∈ g.cells, kept'.1 = kept.1 → kept'.2 = kept.2

/-- Factories do the same under observation if the calls of factories at hand do. -/
theorem CallsSame.runObserved (h : CallsSame cell z held call call') (hsaved : saved ⊆ held)
    (f : Factory) {s : State} (hs : s.Coherent held) (hf : s.Suits held f) :
    SameAt cell z
      (fun x => f.runObserved (.singleton saved cell x z)
        ((Observer.singleton saved cell x z).provider (call x)))
      (f.run (Provider.of call')) s := by
  have hcore : ∀ f : Factory, f.isCore → ∀ s : State, s.Coherent held → SameAt cell z
      (fun x => f.run ((Observer.singleton saved cell x z).provider (call x)))
      (f.run (Provider.of call')) s := fun f hf =>
    h.program (Program.run_core hf (fun _ _ => trivial) (fun _ _ _ _ _ => trivial))
  induction f generalizing s with
  | guarded key inner ih => exact .withGuard (ih hs hf)
  | once other inner ih =>
    obtain ⟨hother, hshared⟩ := hf _ List.mem_cons_self
    have hinner := ih (s := { s with filling := s.filling ++ [other] }) hs
      fun kept hkept => hf kept (List.mem_cons_of_mem _ hkept)
    have hgrows := Growing.run h.grows inner
    by_cases hcell : cell = other
    · subst hcell
      refine .keepIn_own hgrows hother hinner fun x r t hempty hbusy hends _ => ?_
      refine ⟨fun g hg other hkept => ?_, hempty, hbusy, hends⟩
      exact hshared g (hg.imp_left fun hmem => hsaved hmem) _ (Factory.mem_cells_of_kept? hkept) rfl
    · refine .keepIn_other hcell hgrows (.expecting hinner fun _ x heq => ?_)
      exact absurd heq.symm hcell
  | memo store key inner ih => exact .keepBy (Growing.run h.grows inner) (ih hs hf)
  | constant i => exact hcore _ rfl s hs
  | recipe r rewrap => exact hcore _ rfl s hs
  | method key r => exact hcore _ rfl s hs
  | construct key c => exact hcore _ rfl s hs

/-- **Calls.**  However deep a call may go, it is the same under observation. -/
theorem callObserved_same (hsaved : saved ⊆ held) (depth : Nat) :
    CallsSame cell z held (fun x => callObserved (.singleton saved cell x z) depth)
      (callWithin depth) := by
  induction depth with
  | zero =>
    exact ⟨Growing.callWithin 0, fun f s _ _ => .refl _, fun f inner s i _ _ _ hi => by cases hi⟩
  | succ depth ih =>
    have hserves : ∀ (f inner : Factory) (s : State), s.Coherent held → s.Has held f →
        f.kept? = some (cell, inner) →
          s.Serves f cell (inner.run (Provider.of (callWithin depth))) (callWithin (depth + 1) f s).1
            (callWithin (depth + 1) f s).2 := fun f inner s hs hf hkept =>
      run_serves rfl (Growing.run ih.grows inner) hkept
        (hs f hf _ (Factory.mem_cells_of_kept? hkept)).1
    refine ⟨Growing.callWithin (depth + 1), fun f s hs hf => ?_, fun f inner s i hs hf hkept hi => ?_⟩
    · refine .expecting (ih.runObserved hsaved f hs (hs f hf)) fun hz x inner hkept => ?_
      have hserves := hserves f inner s hs hf hkept
      exact ⟨⟨depth, hserves⟩, fun i hi => hz cell i (hserves.given i hi)⟩
    · exact (hserves f inner s hs hf hkept).given i hi

/-- The same at the depth that a call is given otherwise. -/
theorem callsObserved_same (hsaved : saved ⊆ held) :
    CallsSame cell z held (fun x f => f.callObserved (.singleton saved cell x z)) Factory.call where
  grows := Growing.call
  same f s hs hf := .read ((callObserved_same hsaved (s.depthFor f)).same f s hs hf)
  gives f inner s i hs hf hkept hi :=
    (callObserved_same (z := s) hsaved (s.depthFor f)).gives f inner s i hs hf hkept hi

/-! ## Requests -/

/-- **One request.**  It is answered in the same way under observation. -/
theorem Request.observe_same (hsaved : saved ⊆ held) {s : State} (hs : s.Coherent held)
    {r : Request} (hr : r.Allowed held) :
    SameAt cell z (fun x => r.observe (.singleton saved cell x z)) r.run s := by
  have hcalls : CallsSame cell z held _ _ := callsObserved_same hsaved
  cases r with
  | getInstance key => exact (hcalls.ask hs key).map _
  | call f => exact (hcalls.same f s hs (.inl hr)).map _
  | pull supplier => exact (hcalls.pull hs supplier).map _
  | configure n =>
    refine SameAt.map (.get ?_)
      (fun r : Except Stop (Option Instance) × Node Instance => Reply.configured r.1 r.2)
    exact (callObserved_same hsaved (s.knownKeys.length + 2)).program
      (Program.configureNode n n.name trivial fun _ _ _ _ _ => trivial) s hs
  | _ => exact .of_forall fun _ => rfl

end

/-! ## Sequences of requests -/

/-- A factory may be held that has the cells of one that is. -/
theorem State.Coherent.hold_alike {s : State} {held : List Factory} {f g : Factory}
    (h : s.Coherent held) (hg : g ∈ held) (hcells : f.cells = g.cells) : s.Coherent (f :: held) := by
  have hold : ∀ x, s.Has (f :: held) x → ∃ y, s.Has held y ∧ x.cells = y.cells := by
    rintro x (hx | hx)
    · rcases List.mem_cons.mp hx with rfl | hx
      · exact ⟨g, .inl hg, hcells⟩
      · exact ⟨x, .inl hx, rfl⟩
    · exact ⟨x, .inr hx, rfl⟩
  intro x hx kept hkept
  obtain ⟨y, hy, hxy⟩ := hold x hx
  obtain ⟨hlt, hsame⟩ := h y hy kept (hxy ▸ hkept)
  refine ⟨hlt, fun x' hx' kept' hkept' => ?_⟩
  obtain ⟨y', hy', hxy'⟩ := hold x' hx'
  exact hsame y' hy' kept' (hxy' ▸ hkept')

/-- Registrations keep what is in the cells of a state, and the cells of factories apart. -/
theorem State.Coherent.registrable (s : State) :
    Registrable fun held t => s.Before t ∧ t.Coherent held where
  fewer h hfewer := ⟨h.1, h.2.sublist hfewer⟩
  journal _ h := h
  tables tables hbindings h := ⟨h.1, h.2.of_has (Nat.le_refl _) fun f hf => .inl <| by
    unfold Has Knows at hf ⊢
    rw [← hbindings]
    exact hf⟩
  stores _ h := h
  access _ _ _ _ h := h
  guard {_ _ f} key hf h := ⟨h.1, by
    rcases hf with hf | hf
    · exact h.2.hold_alike hf rfl
    · exact h.2.hold (f := .guarded key f) (show f.cells = [] from Factory.cells_of_isCore hf)⟩
  wrap {_ t} scope key inner hcore h := by
    obtain ⟨kept, u, hwrap, hgrows, hheld⟩ :=
      wrapIn_grows t scope key key inner (Factory.cells_of_isCore hcore)
    exact ⟨kept, u, hwrap, h.1.trans hgrows.contents, hheld _ h.2⟩
  put _ _ hf _ h := ⟨h.1, h.2.put hf⟩

/-- A request keeps what is in the cells, and the cells of factories apart. -/
theorem Request.run_coherent {s : State} {held : List Factory} (h : s.Coherent held) {r : Request}
    (hr : r.Allowed held) :
    s.Before (r.run s).2 ∧ (r.run s).2.Coherent ((r.run s).1.factories ++ held) := by
  by_cases hq : r.isQuery
  · have hgrows := Request.growing_query hq s
    refine ⟨hgrows.contents, ?_⟩
    have hcoherent := hgrows.coherent held h
    cases r with
    | getFactory key =>
      have hknows := (s.getFactory_discovers key).knows
      rw [run_getFactory] at hcoherent ⊢
      cases hrun : Assemble.getFactory key s with
      | mk found t =>
        rw [hrun] at hknows hcoherent
        cases found with
        | error stop => exact hcoherent
        | ok f =>
          refine hcoherent.of_has (Nat.le_refl _) fun g hg => .inl ?_
          rcases hg with hg | hg
          · rcases List.mem_cons.mp hg with rfl | hg
            · exact .inr (hknows _ rfl)
            · exact .inl hg
          · exact .inr hg
    | _ => exact hcoherent
  · exact (State.Coherent.registrable s).run_registration hr hq ⟨fun _ _ hi => hi, h⟩

theorem Reachable.coherent {s : State} {held : List Factory} (h : Reachable s held) :
    s.Coherent held := by
  induction h with
  | initial declarations properties environment =>
    rintro f (hf | ⟨b, hb, rfl⟩ | ⟨c, hc, hf⟩)
    · cases hf
    · cases hb
    · cases hc
  | step _ r hr ih => exact (Request.run_coherent ih hr).2

/-- A request returns. -/
theorem Reachable.run_returns {s : State} {held : List Factory} (h : Reachable s held) {r : Request}
    (hr : r.Allowed held) : stop? (r.run s).1 ≠ some .exhausted := by
  by_cases hq : r.isQuery
  · exact (h.query_returns hr hq).1
  · cases r with
    | registerBinding key f source =>
      rcases s.insertBinding_spec key (.guarded key f) source with
        ⟨existing, -, -, hrun⟩ | ⟨-, t, hrun, -⟩
      · simp [hrun, stop?]
      · simp [hrun, stop?]
    | installModule m =>
      obtain ⟨u, -, ⟨-, -, t, hrun, -⟩ | ⟨cause, -, hrun⟩⟩ := s.installModule_spec m
      · simp [hrun, stop?]
      · simp [hrun, stop?]
    | registerConstruction type maker => exact fun hstop => by cases hstop
    | registerScope marker name => cases name <;> exact fun hstop => by cases hstop
    | release => exact fun hstop => by cases hstop
    | set properties environment reportUnmatched => exact fun hstop => by cases hstop
    | readJournal read => exact fun hstop => by cases hstop
    | _ => exact absurd rfl hq

/-- Whether each of some requests names only factories that are at hand then. -/
def State.Allows (s : State) (held : List Factory) : List Request → Prop
  | [] => True
  | r :: rs => r.Allowed held ∧ (r.run s).2.Allows ((r.run s).1.factories ++ held) rs

theorem State.mapM_run (s : State) (rs : List Request) : (rs.mapM Request.run s).2 = s.after rs := by
  induction rs generalizing s with
  | nil => rfl
  | cons r rs ih =>
    rw [List.mapM_cons]
    exact ih (r.run s).2

/-- What a cell keeps it keeps for good, whatever is requested. -/
theorem State.before_after {s : State} {held : List Factory} (hs : s.Coherent held)
    {rs : List Request} (hrs : s.Allows held rs) : s.Before (s.after rs) := by
  induction rs generalizing s held with
  | nil => exact fun _ _ hi => hi
  | cons r rs ih =>
    obtain ⟨hbefore, hcoherent⟩ := Request.run_coherent hs hrs.1
    exact hbefore.trans (ih hcoherent hrs.2)

/-- **Any number of requests.**  They are answered in the same way under observation. -/
theorem requests_same {cell : Nat} {z s : State} {saved held : List Factory} (hsaved : saved ⊆ held)
    (hs : s.Coherent held) {rs : List Request} (hrs : s.Allows held rs) :
    SameAt cell z (fun x => rs.mapM (Request.observe (.singleton saved cell x z)))
      (rs.mapM Request.run) s := by
  induction rs generalizing s held with
  | nil => exact .refl _
  | cons r rs ih =>
    obtain ⟨hr, hrest⟩ := hrs
    obtain ⟨hbefore, hcoherent⟩ := Request.run_coherent hs hr
    have hsame := ih (fun f hf => List.mem_append_right _ (hsaved hf)) hcoherent hrest
    have hafter : (r.run s).2.Before (rs.mapM Request.run (r.run s).2).2 := by
      rw [State.mapM_run]
      exact State.before_after hcoherent hrest
    simp only [List.mapM_cons]
    exact .bind (Request.observe_same hsaved hs hr) hbefore
      (.bind hsame hafter (.refl _) fun _ _ hi => hi) hafter

theorem Reachable.requests_return {s : State} {held : List Factory} (h : Reachable s held)
    {rs : List Request} (hrs : s.Allows held rs) :
    ∀ reply ∈ (rs.mapM Request.run s).1, stop? reply ≠ some .exhausted := by
  induction rs generalizing s held with
  | nil => exact fun _ hreply => by cases hreply
  | cons r rs ih =>
    obtain ⟨hr, hrest⟩ := hrs
    intro reply hreply
    rw [List.mapM_cons] at hreply
    rcases List.mem_cons.mp hreply with rfl | hreply
    · exact h.run_returns hr
    · exact ih (h.step r hr) hrest reply hreply

/-! ## Where singletons begin -/

namespace State

variable {s t : State}

/-- A singleton begins: some keys get one factory, which keeps in a fresh and empty cell what another
makes, and have it until they are bound anew. -/
def Begins (s t : State) (keys : List Key) (owner : Key) (inner f : Factory) : Prop :=
  ∃ cell, s.cells.length ≤ cell ∧ t.cells[cell]? = some { owner } ∧ f.kept? = some (cell, inner) ∧
    ∀ key ∈ keys, (∀ u, t.Evolves u → getFactory key u = (.ok f, u)) ∧
      ∀ rs, ¬ t.Rebinds key rs → getFactory key (t.after rs) = (.ok f, t.after rs)

/-- The scope of singletons begins one under all keys that are bound to its guarded factory. -/
theorem begins_of_wraps (origin : Origin) {keys : List Key} {owner : Key} {inner kept : Factory}
    {scope : Scope} (hscope : scope = .singleton) (hwraps : scope.Wraps s t owner inner kept)
    (hbound : ∀ key ∈ keys, t.tables.binding? key =
      some { key, factory := .guarded owner kept, origin }) :
    s.Begins t keys owner inner (.guarded owner kept) := by
  subst hscope
  cases hwraps with
  | @singleton cell hfresh hempty =>
    exact ⟨cell, hfresh, hempty, rfl, fun key hkey => getFactory_stays (hbound key hkey)⟩

theorem installModule_begins {m : Module} (h : installModule m s = (.ok (), t))
    {method : FactoryMethod} (hmethod : method ∈ m.methods)
    (hscope : s.tables.scopeOf method.scope = .singleton) :
    ∃ f, s.Begins t method.keys method.key (.method method.key method.recipe) f := by
  obtain ⟨_, ⟨log, rfl⟩, ⟨-, -, u, hrun, hinstalls⟩ | ⟨cause, -, hrun⟩⟩ := s.installModule_spec m
  · cases h.symm.trans hrun
    obtain ⟨kept, hwraps, hbound⟩ := hinstalls.bound method hmethod
    exact ⟨_, begins_of_wraps _ hscope (hwraps.mono (Nat.le_refl _) List.prefix_rfl) hbound⟩
  · cases h.symm.trans hrun

theorem implicitFactory_begins {key : Key} {maker : TypePath} {f : Factory}
    (h : implicitFactory key maker s = (.ok f, t)) (hunbound : s.tables.binding? key = none)
    (hscope : s.tables.scopeOf (s.declared maker).scope = .singleton) :
    s.Begins t [key] key (.construct key (s.declared maker)) f := by
  rcases implicitFactory_run maker hunbound with ⟨g, u, hrun, hadds⟩ | ⟨chain, hrun⟩
  · cases h.symm.trans hrun
    obtain ⟨kept, rfl, hwraps⟩ := hadds.wraps
    refine begins_of_wraps .implicit hscope hwraps fun k hk => ?_
    rw [List.mem_singleton.mp hk]
    exact hadds.binding? hunbound
  · cases h.symm.trans hrun

end State

/-- **Singletons.**  From any reachable state, and for any requests that follow, every step is as
`Observer.singleton` expects it of a cell, also where it is nested in constructions: of the attempts
to fill the cell at most one succeeds, and each call, key, dependency and supplier that leads to a
factory of the cell gives what is in the cell in the end.  A point with such a dependency is resolved
to that very instance, which the takes of the point hand on.  No request ends exhausted, so that any
other step would show; what is in a cell stays there.  Each singleton begins with a fresh and empty
cell: one for all keys of a method of a module that is installed, and one for a key that is bound by
resolution; these keys lead to it until they are bound anew. -/
theorem Reachable.singleton_kept {s : State} {held : List Factory} (h : Reachable s held)
    {rs : List Request} (hrs : s.Allows held rs) :
    (∀ cell, ∃ x : Success, rs.mapM (Request.observe (.singleton held cell x (s.after rs))) s =
      rs.mapM Request.run s) ∧
    (∀ reply ∈ (rs.mapM Request.run s).1, stop? reply ≠ some .exhausted) ∧
    s.Before (s.after rs) ∧
    (∀ cell x call p f f' t u argument, p.source = .dependency → p.deferred = false →
      resolvePoint ((Observer.singleton held cell x (s.after rs)).provider call) p f t =
        ((.ok argument, f'), u) →
      ∀ g inner, (dependencyFactory p t).1 = .ok (some g) → g.kept? = some (cell, inner) →
        ∃ i, (s.after rs).cell? cell = some i ∧ argument = .object i ∧ argument.HandsOn i) ∧
    (∀ (t u : State) (m : Module), installModule m t = (.ok (), u) →
      ∀ method ∈ m.methods, t.tables.scopeOf method.scope = .singleton →
        ∃ f, t.Begins u method.keys method.key (.method method.key method.recipe) f) ∧
    ∀ (t u : State) (key : Key) (maker : TypePath) (f : Factory),
      implicitFactory key maker t = (.ok f, u) → t.tables.binding? key = none →
        t.tables.scopeOf (t.declared maker).scope = .singleton →
          t.Begins u [key] key (.construct key (t.declared maker)) f := by
  refine ⟨fun cell => ?_, h.requests_return hrs, State.before_after h.coherent hrs, ?_, ?_, ?_⟩
  · refine (requests_same (List.Subset.refl held) h.coherent hrs ?_).2
    rw [State.mapM_run]
    exact fun _ _ hi => hi
  · intro cell x call p f f' t u argument hsource hnow hresolved g inner hfound hkept
    obtain ⟨i, hi, rfl⟩ := Observer.injected_kept hsource hnow hresolved hfound hkept
    exact ⟨i, hi, rfl, Argument.object_handsOn i⟩
  · exact fun t u m hinstalled method hmethod hscope =>
      State.installModule_begins hinstalled hmethod hscope
  · exact fun t u key maker f hfound hunbound hscope =>
      State.implicitFactory_begins hfound hunbound hscope

/-- A module with one singleton under two keys, which fails when it is made for the first time. -/
def Module.clock : Module where
  name := "Clocks"
  methods := [{
    method := "clock"
    key := .of ⟨"Clock"⟩
    aliases := ["wall"]
    scope := some TypePath.singletonMarker
    recipe := {
      type := ⟨"Clock"⟩
      fault := some { message := "down", times := some 1 }
      body := .literal (.component ⟨"Clock"⟩) } }]

def State.beforeClock : State :=
  .initial [(⟨"Tower"⟩, { Construction.plain ⟨"Tower"⟩ with
    parameters := [.dependency "clock" ⟨"Clock"⟩]
    takes := [{ field := "clock", take := .typed .object ⟨"Clock"⟩ }] })] {} []

/-- Requests for a singleton: one that fails, one for something that asks for both of its keys, and one
for something that it is injected into. -/
def Request.readClock : List Request :=
  let wall := Key.withName (.of ⟨"Clock"⟩) "wall"
  [.installModule .clock, .registerConstruction ⟨"Tower"⟩ ⟨"Tower"⟩,
    .registerBinding (.of ⟨"Pair"⟩)
      (.recipe { type := ⟨"Pair"⟩, body := .gather [.of ⟨"Clock"⟩, wall] [] none } true) "bind",
    .getInstance wall, .getInstance (.of ⟨"Pair"⟩), .getInstance (.of ⟨"Tower"⟩)]

/-- The instances in the fields of the component that is the answer, by their identities. -/
def Reply.parts : Reply → List (String × Nat)
  | .object (.ok (.mk _ (.component c))) => c.fields.filterMap fun
    | (field, .one i) => some (field, i.id)
    | _ => none
  | _ => []

/-- The failure is not kept.  The one instance that is made afterwards answers both keys, and is
injected. -/
theorem singleton_kept_clock :
    let replies := (Request.readClock.mapM Request.run .beforeClock).1
    let after := State.beforeClock.after Request.readClock
    (∃ x : Success, Request.readClock.mapM (Request.observe (.singleton [] 0 x after)) .beforeClock =
        Request.readClock.mapM Request.run .beforeClock) ∧
      replies.map stop? =
        [none, none, none, some (.error (.constructionFailed "Clock" "down")), none, none] ∧
      after.journal.events =
        [.configured "Clocks", .made "Clock", .made "Pair", .made "Clock",
          .created ⟨⟨"Clock"⟩, 1⟩, .created ⟨⟨"Pair"⟩, 2⟩, .created ⟨⟨"Tower"⟩, 3⟩] ∧
      (after.cell? 0).map (·.id) = some 1 ∧
      replies.map Reply.parts = [[], [], [], [],
        [("Clock", 1), ("@Named(\"wall\") Clock", 1)], [("clock", 1)]] := by
  intro replies after
  have hrs : State.Allows .beforeClock [] Request.readClock :=
    ⟨trivial, trivial, .inr rfl, trivial, trivial, trivial, trivial⟩
  obtain ⟨hsame, -⟩ := (Reachable.initial _ {} []).singleton_kept hrs
  exact ⟨hsame 0, by decide +kernel, by decide +kernel, by decide +kernel, by decide +kernel⟩

end ComponentAssembly

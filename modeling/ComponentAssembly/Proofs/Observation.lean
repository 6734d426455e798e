import ComponentAssembly.Proofs.Queries

/-!
# Observed runs

A run is observed by running it again so that it halts after a step that is not as an `Observer`
expects it.  If the observed run is the run itself, then all its steps are as expected, however deep
they are nested:

    (rs.mapM (Request.observe o)).run s = (rs.mapM Request.run).run s

What is expected may speak of the state in the end, and of the one attempt in the run to make an
instance for a cell that succeeds.  So runs are compared for all such attempts at once (`SameAt`): for
some attempt the observed run is the run, and for any where the cell is full in the beginning or empty
in the end, since then no attempt succeeds.
-/

namespace ComponentAssembly

open Assemble Stoppable

/-- How a factory that is called has been come by. -/
inductive Use where
  /-- A key was asked for. -/
  | ask (key : Key)
  /-- A dependency was injected. -/
  | inject (p : InjectionPoint)
  /-- A supplier was used. -/
  | pull (supplier : Supplier)

/-- Finds the factory to be called; a dependency may be absent. -/
def Use.find : Use → Assemble (Option Factory)
  | ask key => some <$> getFactory key
  | inject p => dependencyFactory p
  | pull supplier => some <$> factoryOf supplier

/-- What the steps of a run are expected to be like. -/
structure Observer where
  /-- Calls of a factory: the state before, the result, and the state after. -/
  call : Factory → State → Except Stop Instance → State → Prop
  /-- Attempts to make an instance for a cell by a factory. -/
  attempt : Nat → Factory → State → Except Stop Instance → State → Prop
  /-- What a use gives, and the state before. -/
  use : Use → State → Instance → Prop

open Classical in
/-- Halts after a step that is not as expected. -/
noncomputable def Assemble.expecting {α : Type} (expected : State → Except Stop α → State → Prop)
    (step : Assemble α) : Assemble α := fun s =>
  let (r, t) := step s
  if expected s r t then (r, t) else (.error .exhausted, t)

/-- A step under observation that returns is as expected. -/
theorem Assemble.expecting_ok {α : Type} {expected : State → Except Stop α → State → Prop}
    {step : Assemble α} {a : α} {s t : State} (h : expecting expected step s = (.ok a, t)) :
    step s = (.ok a, t) ∧ expected s (.ok a) t := by
  cases hrun : step s with
  | mk r u =>
    simp only [expecting, hrun] at h
    split at h
    · next hexpected =>
      cases h
      exact ⟨rfl, hexpected⟩
    · cases h

namespace Observer

variable (o : Observer) (call : Factory → Assemble Instance)

/-- The instance of a key, under observation. -/
noncomputable def ask (key : Key) : Assemble Instance :=
  expecting (fun s r _ => ∀ i, r = .ok i → o.use (.ask key) s i) do call (← getFactory key)

/-- The instance of a supplier, under observation. -/
noncomputable def pull (supplier : Supplier) : Assemble Instance :=
  expecting (fun s r _ => ∀ i, r = .ok i → o.use (.pull supplier) s i) (Assemble.pull call supplier)

/-- The instance of a dependency, under observation. -/
noncomputable def supply (p : InjectionPoint) : Assemble (Option Instance) :=
  expecting (fun s r _ => ∀ i, r = .ok (some i) → o.use (.inject p) s i) do
    match ← dependencyFactory p with
    | none => return none
    | some factory => return some (← call factory)

/-- The provider of an injector, under observation. -/
noncomputable def provider : Provider where
  substitutor := currentSubstitutor call
  supply := o.supply call
  ask := o.ask call
  draw lookup type := do o.pull call (← State.newSupplier lookup type)
  enter := withGuard

end Observer

/-- Runs a factory under observation of the attempts to make instances for its cells. -/
noncomputable def Factory.runObserved (o : Observer) (given : Provider) :
    Factory → Assemble Instance
  | .guarded key inner => given.enter key (inner.runObserved o given)
  | .once cell inner => keepIn cell (expecting (o.attempt cell inner) (inner.runObserved o given))
  | .memo store key inner => keepBy store key (inner.runObserved o given)
  | f => f.run given

/-- Runs a factory under observation, with at most so many calls nested in each other. -/
noncomputable def callObserved (o : Observer) : Nat → Factory → Assemble Instance
  | 0, _ => throw .exhausted
  | depth + 1, f => expecting (o.call f) (f.runObserved o (o.provider (callObserved o depth)))

/-- Runs a factory under observation, with the depth that it is given otherwise. -/
noncomputable def Factory.callObserved (o : Observer) (f : Factory) : Assemble Instance := do
  ComponentAssembly.callObserved o ((← get).depthFor f) f

/-- Answers a request under observation. -/
noncomputable def Request.observe (o : Observer) : Request → StateM State Reply
  | getInstance key => .object <$> (o.ask (Factory.callObserved o) key).run
  | call f => .object <$> (f.callObserved o).run
  | pull supplier => .object <$> (o.pull (Factory.callObserved o) supplier).run
  | configure n => (fun r => .configured r.1 r.2) <$> do
    let depth := (← get).knownKeys.length + 2
    configureNode (o.provider (ComponentAssembly.callObserved o depth)) n n.name
  | r => r.run

/-! ## Runs that are as expected -/

namespace State

variable {s t u : State} {cell : Nat}

/-- One state comes before another: what its cells keep is kept for good. -/
def Before (s t : State) : Prop :=
  ∀ cell i, s.cell? cell = some i → t.cell? cell = some i

theorem Before.trans (h : s.Before t) (h' : t.Before u) : s.Before u :=
  fun cell i hi => h' cell i (h cell i hi)

theorem Before.empty (h : s.Before t) (ht : t.cell? cell = none) : s.cell? cell = none := by
  cases hs : s.cell? cell with
  | none => rfl
  | some i =>
    rw [h cell i hs] at ht
    cases ht

end State

/-- The attempt to make an instance for a cell that succeeds. -/
structure Success where
  start : State
  finish : State
deriving Inhabited

/-- At a state, a step is the same under observation if it ends before some state, whatever attempt
is said to succeed for a cell that is full in the beginning or empty in the end. -/
def SameAt {α : Type} (cell : Nat) (z : State) (m : Success → StateM State α) (n : StateM State α)
    (s : State) : Prop :=
  (n s).2.Before z →
    (s.cell? cell ≠ none ∨ (n s).2.cell? cell = none → ∀ x, m x s = n s) ∧ ∃ x, m x s = n s

namespace SameAt

variable {α β : Type} {cell : Nat} {s z : State}

theorem of_forall {m : Success → StateM State α} {n : StateM State α} (h : ∀ x, m x s = n s) :
    SameAt cell z m n s :=
  fun _ => ⟨fun _ => h, default, h default⟩

theorem refl (m : StateM State α) : SameAt cell z (fun _ => m) m s :=
  of_forall fun _ => rfl

theorem bind {m : Success → StateM State α} {n : StateM State α}
    {f : Success → α → StateM State β} {g : α → StateM State β} (h : SameAt cell z m n s)
    (hn : s.Before (n s).2) (hf : SameAt cell z (f · (n s).1) (g (n s).1) (n s).2)
    (hg : (n s).2.Before (g (n s).1 (n s).2).2) :
    SameAt cell z (fun x => m x >>= f x) (n >>= g) s := by
  intro hz
  have hz : (g (n s).1 (n s).2).2.Before z := hz
  obtain ⟨hall, x, hx⟩ := h (hg.trans hz)
  obtain ⟨hall', x', hx'⟩ := hf hz
  have hboth : ∀ x, m x s = n s → f x (n s).1 (n s).2 = g (n s).1 (n s).2 →
      (m x >>= f x) s = (n >>= g) s := by
    intro x hfirst hrest
    show f x (m x s).1 (m x s).2 = _
    rw [hfirst]
    exact hrest
  refine ⟨fun hends x => hboth x (hall ?_ x) (hall' ?_ x), ?_⟩
  · exact hends.imp_right hg.empty
  · exact hends.imp_left fun hfull hempty => hfull (hn.empty hempty)
  · -- the attempt that succeeds is in the first step or in the rest
    by_cases hempty : (n s).2.cell? cell = none
    · exact ⟨x', hboth x' (hall (.inr hempty) x') hx'⟩
    · exact ⟨x, hboth x hx (hall' (.inl hempty) x)⟩

theorem andThen {m : Success → Assemble α} {n : Assemble α} {f : Success → α → Assemble β}
    {g : α → Assemble β} (h : SameAt cell z m n s) (hn : s.Before (n s).2)
    (hf : ∀ a t, n s = (.ok a, t) → SameAt cell z (f · a) (g a) t) (hg : ∀ a, Growing (g a)) :
    SameAt cell z (fun x => (m x >>= f x : Assemble β)) (n >>= g : Assemble β) s := by
  refine bind (f := fun x => ExceptT.bindCont (f x)) (g := ExceptT.bindCont g) h hn ?_ ?_
  · cases hrun : n s with
    | mk r t =>
      cases r with
      | ok a => exact hf a t hrun
      | error stop => exact .refl _
  · cases hrun : n s with
    | mk r t =>
      cases r with
      | ok a => exact (hg a t).contents
      | error stop => exact fun _ _ hi => hi

/-- A first step that reads the state. -/
theorem get {f : Success → State → StateM State β} {g : State → StateM State β}
    (h : SameAt cell z (f · s) (g s) s) :
    SameAt cell z (fun x => MonadState.get >>= f x) (MonadState.get >>= g) s :=
  h

theorem read {f : Success → State → Assemble β} {g : State → Assemble β}
    (h : SameAt cell z (f · s) (g s) s) :
    SameAt cell z (fun x => (MonadState.get >>= f x : Assemble β))
      (MonadState.get >>= g : Assemble β) s :=
  h

theorem map {m : Success → StateM State α} {n : StateM State α} (h : SameAt cell z m n s)
    (g : α → β) : SameAt cell z (fun x => g <$> m x) (g <$> n) s := by
  have hsame : ∀ x, m x s = n s → (g <$> m x : StateM State β) s = (g <$> n : StateM State β) s := by
    intro x hx
    show (g (m x s).1, (m x s).2) = _
    rw [hx]
    rfl
  intro hz
  obtain ⟨hall, x, hx⟩ := h hz
  exact ⟨fun hends x => hsame x (hall hends x), x, hsame x hx⟩

theorem attempt {m : Success → Assemble α} {n : Assemble α} (h : SameAt cell z m n s)
    (hn : s.Before (n s).2) :
    SameAt cell z (fun x => Assemble.attempt (m x)) (Assemble.attempt n) s := by
  refine bind h hn (.refl _) ?_
  show (n.run s).2.Before _
  generalize n.run s = ended
  match ended with
  | (.ok a, t) => exact fun _ _ hi => hi
  | (.error (.error cause), t) => exact fun _ _ hi => hi
  | (.error .exhausted, t) => exact fun _ _ hi => hi

/-- A lookup first. -/
theorem found {m : Assemble Factory} {f : Success → Factory → Assemble β} {g : Factory → Assemble β}
    (hm : s.Discovers m) (hf : ∀ a t, s.Grows t → t.Knows a → SameAt cell z (f · a) (g a) t)
    (hg : ∀ a, Growing (g a)) :
    SameAt cell z (fun x => (m >>= f x : Assemble β)) (m >>= g : Assemble β) s := by
  refine andThen (.refl m) hm.grows.contents (fun a t hrun => hf a t ?_ ?_) hg
  · have hgrows := hm.grows
    rw [hrun] at hgrows
    exact hgrows
  · have hknows := hm.knows a
    rw [hrun] at hknows
    exact hknows rfl

/-- A step that is as expected. -/
theorem expecting {m : Success → Assemble α} {n : Assemble α}
    {expected : Success → State → Except Stop α → State → Prop} (h : SameAt cell z m n s)
    (hexpected : (n s).2.Before z → ∀ x, expected x s (n s).1 (n s).2) :
    SameAt cell z (fun x => Assemble.expecting (expected x) (m x)) n s := by
  intro hz
  have hsame : ∀ x, m x s = n s → Assemble.expecting (expected x) (m x) s = n s := by
    intro x hx
    unfold Assemble.expecting
    rw [hx]
    exact if_pos (hexpected hz x)
  obtain ⟨hall, x, hx⟩ := h hz
  exact ⟨fun hends x => hsame x (hall hends x), x, hsame x hx⟩

/-! ## Layers -/

theorem withGuard {m : Success → Assemble Instance} {n : Assemble Instance} {key : Key}
    (h : SameAt cell z m n { s with inProgress := s.inProgress ++ [key] }) :
    SameAt cell z (fun x => Assemble.withGuard key (m x)) (Assemble.withGuard key n) s := by
  cases hchain : cycleChain s.inProgress key with
  | some chain =>
    refine of_forall fun x => ?_
    rw [withGuard_circular hchain, withGuard_circular hchain]
  | none =>
    intro hz
    rw [withGuard_entered hchain] at hz
    have hsame : ∀ x, m x { s with inProgress := s.inProgress ++ [key] } =
        n { s with inProgress := s.inProgress ++ [key] } →
          Assemble.withGuard key (m x) s = Assemble.withGuard key n s := by
      intro x hx
      rw [withGuard_entered hchain, withGuard_entered hchain, hx]
    obtain ⟨hall, x, hx⟩ := h hz
    refine ⟨fun hends x => hsame x (hall ?_ x), x, hsame x hx⟩
    rw [withGuard_entered hchain] at hends
    exact hends

theorem keepBy {m : Success → Assemble Instance} {n : Assemble Instance} {store : Nat} {key : Key}
    (hn : Growing n) (h : SameAt cell z m n s) :
    SameAt cell z (fun x => Assemble.keepBy store key (m x)) (Assemble.keepBy store key n) s := by
  refine .read ?_
  cases s.stored? store key with
  | some i => exact .refl _
  | none =>
    refine .andThen h (hn s).contents (fun i t _ => .refl _) fun i => .read fun t => ?_
    cases t.stored? store key with
    | some earlier => exact .ok earlier
    | none => exact fun u => .of_same rfl rfl rfl rfl rfl rfl

end SameAt

end ComponentAssembly

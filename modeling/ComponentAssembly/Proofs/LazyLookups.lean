import ComponentAssembly.Proofs.Permanence

/-!
# Lookups are lazy, and what they find is kept

A lookup of a key runs no factory.  It either fails and leaves the state as it was, or finds what the
key is bound to; only if the key was unbound there is one more binding then (`State.getFactory_lazy`):

    key bound       the factory, state as before
    key unbound     s.Adds key maker f t, or an error, state as before

From then on every lookup of the key finds the same factory, until the key is bound anew.  A scope or
a construction that is registered meanwhile comes too late.
-/

namespace ComponentAssembly

open Assemble Stoppable

namespace State

variable {s t : State} {key : Key}

/-! ## The first lookup of a key -/

/-- What a lookup of an unbound key makes of a state.  Besides the binding there may be a new cell,
and a scope may tell that it wraps a factory. -/
structure Adds (s : State) (key : Key) (maker : TypePath) (f : Factory) (t : State) : Prop where
  /-- The factory builds by the construction of a type, in the scope of the construction. -/
  wraps : ∃ kept, f = .guarded key kept ∧
    (s.tables.scopeOf (s.declared maker).scope).Wraps s t key (.construct key (s.declared maker)) kept
  bindings : t.tables.bindings = s.tables.bindings ++ [{ key, factory := f, origin := .implicit }]
  cells : s.cells <+: t.cells
  events : ∃ wrapped : List Key, t.journal.events = s.journal.events ++ wrapped.map .wrapped
  rest : t = { s with
    tables := { s.tables with bindings := t.tables.bindings }
    cells := t.cells
    journal := { s.journal with events := t.journal.events, log := t.journal.log } }

theorem Adds.binding? {maker : TypePath} {f : Factory} (h : s.Adds key maker f t)
    (hunbound : s.tables.binding? key = none) :
    t.tables.binding? key = some { key, factory := f, origin := .implicit } := by
  have hfind := binding?_append (b := { key, factory := f, origin := .implicit }) hunbound key
  rw [if_pos rfl] at hfind
  unfold Tables.binding? at hfind ⊢
  rw [h.bindings]
  exact hfind

/-- If no cycle can be reached from an unbound key, one binding is added. -/
theorem implicitFactory_adds {maker : TypePath} (hunbound : s.tables.binding? key = none)
    (hcheck : s.checkAcyclic key (s.declared maker) = .ok ()) :
    ∃ f t, implicitFactory key maker s = (.ok f, t) ∧ s.Adds key maker f t := by
  obtain ⟨log, told, hrun⟩ := implicitFactory_passed hcheck
  obtain ⟨kept, u, hwrap, hwraps, hcells, hevents, hu⟩ := wrapIn_eq
    { s with journal := { s.journal with log } } (s.tables.scopeOf (s.declared maker).scope) key
    (.construct key (s.declared maker))
  have htables : u.tables = s.tables := by rw [hu]
  have hrun := hrun kept u hwrap
  rw [htables, hunbound] at hrun
  have hput := put_of_unbound (b := { key, factory := .guarded key kept, origin := .implicit }) hunbound
  refine ⟨_, _, hrun, ⟨kept, rfl, hwraps.mono (Nat.le_refl _) List.prefix_rfl⟩, ?_, hcells, hevents, ?_⟩
  · rw [hput]
  · rw [hput, hu]

/-- What becomes of an unbound key for which a binding is to be made, in any state. -/
theorem implicitFactory_run (maker : TypePath) (hunbound : s.tables.binding? key = none) :
    (∃ f t, implicitFactory key maker s = (.ok f, t) ∧ s.Adds key maker f t) ∨
      ∃ chain, implicitFactory key maker s = (.error (.error (.circularDependency chain)), s) := by
  rcases s.checkAcyclic_total key (s.declared maker) with ⟨hcheck, -⟩ | ⟨cycle, hcheck, -⟩
  · exact .inl (implicitFactory_adds hunbound hcheck)
  · exact .inr ⟨_, implicitFactory_error hcheck⟩

/-- What a lookup does, in any state. -/
theorem getFactory_run (s : State) (key : Key) :
    (∃ b, s.tables.binding? key = some b ∧ getFactory key s = (.ok b.factory, s)) ∨
    (∃ maker f t, s.tables.binding? key = none ∧ s.tables.construction? key.type = some maker ∧
      getFactory key s = (.ok f, t) ∧ s.Adds key maker f t) ∨
    ∃ cause, getFactory key s = (.error (.error cause), s) ∧ s.tables.binding? key = none ∧
      (cause = .noConstruction key ∧ s.tables.construction? key.type = none ∨
        ∃ chain, cause = .circularDependency chain) := by
  cases hb : s.tables.binding? key with
  | some b => exact .inl ⟨b, rfl, getFactory_bound hb⟩
  | none =>
    have hrun := getFactory_unbound hb
    cases hmaker : s.tables.construction? key.type with
    | none =>
      rw [hmaker] at hrun
      exact .inr (.inr ⟨_, hrun, rfl, .inl ⟨rfl, rfl⟩⟩)
    | some maker =>
      rw [hmaker] at hrun
      rcases implicitFactory_run maker hb with ⟨f, t, hok, hadds⟩ | ⟨chain, hfail⟩
      · exact .inr (.inl ⟨maker, f, t, rfl, rfl, hrun.trans hok, hadds⟩)
      · exact .inr (.inr ⟨_, hrun.trans hfail, rfl, .inr ⟨chain, rfl⟩⟩)

end State

/-! ## Later requests -/

/-- **One request.**  A binding stays as it is unless its key is bound anew: by a registration of the
key that is not refused. -/
theorem Request.run_binding (r : Request) {s : State} {key : Key} {b : Binding}
    (hb : s.tables.binding? key = some b) :
    (r.run s).2.tables.binding? key = some b ∨
      stop? (r.run s).1 = none ∧ ∃ source, r.Registers key source := by
  cases r.leaves s key with
  | same hsame => exact .inl (hsame.trans hb)
  | added hunbound => cases hunbound.symm.trans hb
  | registered hregisters hdone => exact .inr ⟨hdone, _, hregisters⟩

/-- Whether one of some requests binds a key anew: it registers the key, and is not refused. -/
def State.Rebinds (s : State) (key : Key) : List Request → Prop
  | [] => False
  | r :: rs =>
    (stop? (r.run s).1 = none ∧ ∃ source, r.Registers key source) ∨ (r.run s).2.Rebinds key rs

/-- **Any number of requests.**  A binding stays as it is until its key is bound anew. -/
theorem State.after_binding {rs : List Request} {s : State} {key : Key} {b : Binding}
    (hb : s.tables.binding? key = some b) (hrs : ¬ s.Rebinds key rs) :
    (s.after rs).tables.binding? key = some b := by
  induction rs generalizing s with
  | nil => exact hb
  | cons r rs ih =>
    obtain ⟨hr, hrest⟩ := not_or.mp hrs
    exact ih ((r.run_binding hb).resolve_right hr) hrest

/-- **Any number of steps.**  Whatever goes on in the midst of calls, and after any requests none of
which binds it anew, a bound key has the same factory. -/
theorem State.getFactory_stays {s : State} {key : Key} {b : Binding}
    (hb : s.tables.binding? key = some b) :
    (∀ t, s.Evolves t → getFactory key t = (.ok b.factory, t)) ∧
      ∀ rs, ¬ s.Rebinds key rs → getFactory key (s.after rs) = (.ok b.factory, s.after rs) :=
  ⟨fun _ ht => getFactory_bound (ht.kept key b hb),
    fun _ hrs => getFactory_bound (State.after_binding hb hrs)⟩

/-- **Lookups are lazy, and what they find is kept.**  A lookup that fails leaves the state as it
was.  One that succeeds adds at most a binding of the key, and this only where the key was unbound;
besides there may be a new cell, which is empty, and the journal may tell of a scope.  No factory
runs: nothing is created, counted, tried, kept or reported.  From then on the key has the same factory
in all that goes on in the midst of calls, and after any requests none of which binds it anew. -/
theorem State.getFactory_lazy (s : State) (key : Key) :
    (∃ cause, getFactory key s = (.error (.error cause), s) ∧ s.tables.binding? key = none ∧
      (cause = .noConstruction key ∧ s.tables.construction? key.type = none ∨
        ∃ chain, cause = .circularDependency chain)) ∨
    ∃ f t, getFactory key s = (.ok f, t) ∧
      (t = s ∧ s.factory? key = some f ∨
        s.tables.binding? key = none ∧ ∃ maker, s.tables.construction? key.type = some maker ∧
          s.Adds key maker f t) ∧
      (∀ u, t.Evolves u → getFactory key u = (.ok f, u)) ∧
      ∀ rs, ¬ t.Rebinds key rs → getFactory key (t.after rs) = (.ok f, t.after rs) := by
  rcases s.getFactory_run key with
    ⟨b, hb, hrun⟩ | ⟨maker, f, t, hunbound, hmaker, hrun, hadds⟩ | hfails
  · exact .inr ⟨_, s, hrun, .inl ⟨rfl, factory?_of_binding? hb⟩, getFactory_stays hb⟩
  · exact .inr ⟨f, t, hrun, .inr ⟨hunbound, maker, hmaker, hadds⟩,
      getFactory_stays (hadds.binding? hunbound)⟩
  · exact .inl hfails

/-- A session, in a scope that is not registered at first. -/
def State.sessions : State :=
  (State.initial [(⟨"Session"⟩, { Construction.plain ⟨"Session"⟩ with scope := some ⟨"PerUser"⟩ })] {}
    []).after [.registerConstruction ⟨"Session"⟩ ⟨"Session"⟩]

/-- A scope and a construction that are registered after the first lookup come too late, also once
the factory has run. -/
theorem getFactory_lazy_session :
    let session := Key.of ⟨"Session"⟩
    let f := Factory.guarded session (.construct session (State.sessions.declared ⟨"Session"⟩))
    ∃ t, getFactory session .sessions = (.ok f, t) ∧
      ∀ u, u = t.after [.registerScope ⟨"PerUser"⟩ .singleton, .getInstance session,
          .registerConstruction ⟨"Session"⟩ ⟨"Guest"⟩] → getFactory session u = (.ok f, u) := by
  intro session f
  have hfound : (getFactory session .sessions).1 = .ok f := rfl
  rcases State.sessions.getFactory_lazy session with ⟨cause, hfail, -⟩ | ⟨g, t, hok, -, -, hkept⟩
  · rw [hfail] at hfound
    cases hfound
  · rw [hok] at hfound
    cases hfound
    refine ⟨t, hok, fun u hu => ?_⟩
    rw [hu]
    exact hkept _ (by simp [State.Rebinds, Request.Registers])

end ComponentAssembly

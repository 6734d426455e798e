import ComponentAssembly.Proofs.Watching

/-!
# What a supplier gives

Nothing but its own pulls changes a supplier that is handed out, however deep calls go in between.  A
pull looks the factory up until it is found; that one is kept for good:

    pull, not found before    findFactory lookup, and the supplier keeps what it finds
    pull, found before        the factory that is kept, state as before
    any other request         supplier as before

So a supplier of a dependency gives what the dependency is looked up at in the state of the first pull
that finds something (`State.after_supplier`), and what that is, is the same as for a dependency that is
not put off (`State.dependency_agrees`).
-/

namespace ComponentAssembly

open Assemble Stoppable

/-- A supplier is as given. -/
def State.Supplies (id : Nat) (c : SupplierCell) (s : State) : Prop :=
  s.suppliers[id]? = some c

namespace State.Supplies

variable {id : Nat} {c : SupplierCell} {s : State}

theorem append (h : s.Supplies id c) (new : SupplierCell) :
    (s.suppliers ++ [new])[id]? = some c := by
  rw [List.getElem?_append_left (List.getElem?_eq_some_iff.mp h).1]
  exact h

theorem fill_other (h : s.Supplies id c) {other : Nat} (hother : other ≠ id) (f : Factory) :
    State.Supplies id c (State.fillSupplier other f s).2 := by
  show (s.suppliers.modify other _)[id]? = some c
  rw [List.getElem?_modify, h]
  simp [hother]

theorem fill (h : s.Supplies id c) (f : Factory) :
    State.Supplies id { c with factory := some f } (State.fillSupplier id f s).2 := by
  show (s.suppliers.modify id _)[id]? = _
  rw [List.getElem?_modify, h]
  simp

/-- Calls leave a supplier as it is that is handed out. -/
theorem watched (id : Nat) (c : SupplierCell) : Watched .free (State.Supplies id c) where
  quiet _ _ _ _ _ h := h
  failure _ _ _ _ h := h
  note _ _ _ h := h
  component _ _ h := ⟨h, trivial⟩
  trials _ _ h := h
  counters _ _ h := h
  supplier _ _ h _ := h.append _
  reads _ _ := trivial
  same _ _ hlike h := by
    unfold State.Supplies at h ⊢
    rw [hlike.suppliers]
    exact h
  drawn _ _ _ _ h _ _ := h.append _
  stops _ := trivial
  points _ := trivial
  keys _ := trivial

theorem keeps_call (f : Factory) : Keeps (State.Supplies id c) f.call :=
  fun s h => (watched id c).keeps_callWithin (s.depthFor f) f s h

theorem keeps_factoryOf {supplier : Supplier} (hother : supplier.id ≠ id) :
    Keeps (State.Supplies id c) (factoryOf supplier) := by
  refine .andThen (fun _ h => h) fun s => ?_
  cases s.suppliers[supplier.id]? with
  | none => exact fun _ h => h
  | some cell =>
    dsimp only
    cases cell.factory with
    | some f => exact fun _ h => h
    | none =>
      refine .andThen ((watched id c).keeps_findFactory _) fun f => ?_
      exact .andThen (fun _ h => h.fill_other hother f) fun _ _ h => h

theorem keeps_configure (n : Node Instance) : Keeps (State.Supplies id c) (Assemble.configure n) := by
  intro s h
  have hgiven := (watched id c).provider_keeps
    ((watched id c).keeps_callWithin (s.knownKeys.length + 2))
  exact (Program.keeps (watched id c).toKeeps hgiven
    (Program.configureNode n n.name trivial fun _ _ _ _ _ => trivial) s h).1

/-- Registrations have nothing to do with suppliers. -/
theorem registrable (id : Nat) (c : SupplierCell) :
    Registrable fun _ s => State.Supplies id c s where
  fewer h _ := h
  journal _ h := h
  tables _ _ h := h
  stores _ h := h
  access _ _ _ _ h := h
  guard _ _ h := h
  wrap := by
    intro _ s scope key inner _ h
    obtain ⟨kept, t, hwrap, -, -, -, ht⟩ := s.wrapIn_eq scope key inner
    refine ⟨kept, t, hwrap, ?_⟩
    rw [ht]
    exact h
  put _ _ _ _ h := h

/-- **One request.**  A request that does not pull a supplier leaves it as it is. -/
theorem run {r : Request} (h : s.Supplies id c)
    (hr : ∀ supplier, r = .pull supplier → supplier.id ≠ id) : State.Supplies id c (r.run s).2 := by
  have hI := watched id c
  have hregisters : ∀ held, r.Allowed held → ¬ r.isQuery → State.Supplies id c (r.run s).2 :=
    fun _ hallowed hq => (registrable id c).run_registration hallowed hq h
  cases r with
  | getFactory key => exact hI.keeps_getFactory key s h
  | getInstance key => exact Keeps.andThen (hI.keeps_getFactory key) keeps_call s h
  | call f => exact keeps_call f s h
  | getSupplier key type =>
    refine Keeps.andThen (hI.keeps_getFactory key) (fun f => ?_) s h
    exact fun _ h => h.append _
  | pull supplier =>
    show State.Supplies id c (pull Factory.call supplier s).2
    rw [pull_eq]
    refine Keeps.andThen (keeps_factoryOf (hr supplier rfl)) (fun f => ?_) s h
    exact .andThen (keeps_call f) fun _ => keeps_ofExcept _
  | configure n => exact keeps_configure n s h
  | registerBinding key f source =>
    exact hregisters [f] (.inl List.mem_cons_self) (by simp [Request.isQuery])
  | _ => exact hregisters [] trivial (by simp [Request.isQuery])

end State.Supplies

/-! ## Pulls -/

section

variable {s : State} {p : InjectionPoint} {supplier : Supplier}

/-- The instance that a supplier gives by a factory. -/
def Assemble.giveBy (call : Factory → Assemble Instance) (supplier : Supplier) (f : Factory) :
    Assemble Instance := do
  let i ← call f
  ofExcept (i.downcast supplier.type supplier.key.text)

theorem State.pull_found {call : Factory → Assemble Instance} {lookup : Lookup} {f : Factory}
    (h : s.Supplies supplier.id { lookup, factory := some f }) :
    Assemble.pull call supplier s = giveBy call supplier f s := by
  simp [pull_eq, factoryOf_found h, giveBy]

/-- A supplier that has not found its factory looks it up, and keeps what it finds. -/
theorem State.pull_empty (call : Factory → Assemble Instance) {lookup : Lookup}
    (h : s.Supplies supplier.id { lookup }) :
    Assemble.pull call supplier s = match findFactory lookup s with
      | (.ok f, t) => giveBy call supplier f (fillSupplier supplier.id f t).2
      | (.error stop, t) => (.error stop, t) := by
  rcases hfound : findFactory lookup s with ⟨_ | _, _⟩ <;>
    simp [pull_eq, factoryOf_empty h, hfound, giveBy]

theorem State.pull_dependency (call : Factory → Assemble Instance)
    (h : s.Supplies supplier.id { lookup := .dependency p }) :
    Assemble.pull call supplier s =
      if s.alive then
        match dependencyFactory p s with
        | (.ok (some f), t) => giveBy call supplier f (fillSupplier supplier.id f t).2
        | (.ok none, t) => (.error (.error (.noConstruction p.key)), t)
        | (.error stop, t) => (.error stop, t)
      else (.error (.error (.injectorDropped p.key)), s) := by
  rw [pull_empty call h, findFactory_dependency_eq]
  cases s.alive with
  | false => rfl
  | true =>
    match dependencyFactory p s with
    | (.ok (some f), t) => rfl
    | (.ok none, t) => rfl
    | (.error stop, t) => rfl

theorem State.Supplies.keeps_giveBy {id : Nat} {c : SupplierCell} (supplier : Supplier) (f : Factory) :
    Keeps (State.Supplies id c) (giveBy Factory.call supplier f) :=
  .andThen (State.Supplies.keeps_call f) fun _ => keeps_ofExcept _

/-- **One pull.**  A supplier that is empty finds the factory of its dependency and keeps it, or stays
as it is. -/
theorem State.Supplies.pull (h : s.Supplies supplier.id { lookup := .dependency p }) :
    (∃ f u, s.alive ∧ dependencyFactory p s = (.ok (some f), u) ∧
      State.Supplies supplier.id { lookup := .dependency p, factory := some f }
        ((Request.pull supplier).run s).2) ∨
    (s.alive → ∀ f u, dependencyFactory p s ≠ (.ok (some f), u)) ∧
      State.Supplies supplier.id { lookup := .dependency p } ((Request.pull supplier).run s).2 := by
  have hsame := (SupplierFree.dependencyFactory p).suppliers_eq s
  have hpull := State.pull_dependency Factory.call h
  have hstays : ∀ t : State, t.suppliers = s.suppliers →
      t.Supplies supplier.id { lookup := .dependency p } := by
    intro t ht
    unfold State.Supplies
    rw [ht]
    exact h
  show (∃ f u, _ ∧ _ ∧ State.Supplies _ _ (Assemble.pull Factory.call supplier s).2) ∨
    _ ∧ State.Supplies _ _ (Assemble.pull Factory.call supplier s).2
  rw [hpull]
  cases s.alive with
  | false => exact .inr ⟨fun hfalse => (by cases hfalse), h⟩
  | true =>
    match hfound : dependencyFactory p s with
    | (.ok (some f), u) =>
      rw [hfound] at hsame
      exact .inl ⟨f, u, rfl, rfl, State.Supplies.keeps_giveBy supplier f _ ((hstays u hsame).fill f)⟩
    | (.ok none, u) =>
      rw [hfound] at hsame
      exact .inr ⟨fun _ f v hne => (by cases hne), hstays u hsame⟩
    | (.error stop, u) =>
      rw [hfound] at hsame
      exact .inr ⟨fun _ f v hne => (by cases hne), hstays u hsame⟩

/-- **One request.**  A supplier that has found its factory keeps it. -/
theorem State.Supplies.run_found {id : Nat} {lookup : Lookup} {f : Factory}
    (h : s.Supplies id { lookup, factory := some f }) (r : Request) :
    State.Supplies id { lookup, factory := some f } (r.run s).2 := by
  by_cases hpull : ∃ supplier, r = .pull supplier ∧ supplier.id = id
  · obtain ⟨supplier, rfl, rfl⟩ := hpull
    show State.Supplies supplier.id _ (Assemble.pull Factory.call supplier s).2
    rw [State.pull_found h]
    exact State.Supplies.keeps_giveBy supplier f s h
  · exact h.run fun supplier hr hid => hpull ⟨supplier, hr, hid⟩

end

/-! ## Any number of requests -/

section

variable {s : State} {p : InjectionPoint} {id : Nat} {rs : List Request}

theorem State.Supplies.after_found {lookup : Lookup} {f : Factory}
    (h : s.Supplies id { lookup, factory := some f }) :
    State.Supplies id { lookup, factory := some f } (s.after rs) := by
  induction rs generalizing s with
  | nil => exact h
  | cons r rs ih => exact ih (h.run_found r)

/-- A pull among some requests looks the dependency of its supplier up and finds a factory, the first
one to do so; `f` is the factory. -/
def State.FirstFinds (s : State) (id : Nat) (p : InjectionPoint) (rs : List Request) (f : Factory) :
    Prop :=
  ∃ before supplier rest u, rs = before ++ .pull supplier :: rest ∧ supplier.id = id ∧
    State.Supplies id { lookup := .dependency p } (s.after before) ∧ (s.after before).alive ∧
      dependencyFactory p (s.after before) = (.ok (some f), u)

/-- No pull among some requests looks the dependency of its supplier up and finds a factory. -/
def State.NeverFinds (s : State) (id : Nat) (p : InjectionPoint) (rs : List Request) : Prop :=
  ∀ before supplier rest, rs = before ++ .pull supplier :: rest → supplier.id = id →
    (s.after before).alive → ∀ f u, dependencyFactory p (s.after before) ≠ (.ok (some f), u)

theorem State.FirstFinds.cons {r : Request} {f : Factory} (h : (r.run s).2.FirstFinds id p rs f) :
    s.FirstFinds id p (r :: rs) f := by
  obtain ⟨before, supplier, rest, u, rfl, hfinds⟩ := h
  exact ⟨r :: before, supplier, rest, u, rfl, hfinds⟩

theorem State.NeverFinds.cons {r : Request} (h : (r.run s).2.NeverFinds id p rs)
    (hr : ∀ supplier, r = .pull supplier → supplier.id = id → s.alive →
      ∀ f u, dependencyFactory p s ≠ (.ok (some f), u)) : s.NeverFinds id p (r :: rs) := by
  intro before supplier rest heq hid
  cases before with
  | nil =>
    obtain ⟨rfl, -⟩ := List.cons.inj heq
    exact hr supplier rfl hid
  | cons first before =>
    obtain ⟨rfl, hrest⟩ := List.cons.inj heq
    exact h before supplier rest hrest hid

/-- **Any number of requests.**  An empty supplier of a dependency stays empty until a pull finds the
factory of the dependency; it keeps the first one that is found. -/
theorem State.after_supplier (h : s.Supplies id { lookup := .dependency p }) (rs : List Request) :
    s.NeverFinds id p rs ∧ State.Supplies id { lookup := .dependency p } (s.after rs) ∨
      ∃ f, s.FirstFinds id p rs f ∧
        State.Supplies id { lookup := .dependency p, factory := some f } (s.after rs) := by
  induction rs generalizing s with
  | nil =>
    refine .inl ⟨fun before supplier rest heq => ?_, h⟩
    exact absurd heq (by simp)
  | cons r rs ih =>
    have hstep : (∃ f u, (∃ supplier, r = .pull supplier ∧ supplier.id = id) ∧ s.alive ∧
          dependencyFactory p s = (.ok (some f), u) ∧
            State.Supplies id { lookup := .dependency p, factory := some f } (r.run s).2) ∨
        State.Supplies id { lookup := .dependency p } (r.run s).2 ∧
          ∀ supplier, r = .pull supplier → supplier.id = id → s.alive →
            ∀ f u, dependencyFactory p s ≠ (.ok (some f), u) := by
      by_cases hpull : ∃ supplier, r = .pull supplier ∧ supplier.id = id
      · obtain ⟨supplier, rfl, rfl⟩ := hpull
        rcases h.pull with ⟨f, u, hfinds⟩ | ⟨hmissed, hempty⟩
        · exact .inl ⟨f, u, ⟨supplier, rfl, rfl⟩, hfinds⟩
        · exact .inr ⟨hempty, fun _ _ _ => hmissed⟩
      · refine .inr ⟨h.run fun supplier hr hid => hpull ⟨supplier, hr, hid⟩, fun supplier hr hid => ?_⟩
        exact absurd ⟨supplier, hr, hid⟩ hpull
    rcases hstep with ⟨f, u, ⟨supplier, rfl, hid⟩, halive, hfound, hfilled⟩ | ⟨hempty, hmissed⟩
    · exact .inr ⟨f, ⟨[], supplier, rs, u, rfl, hid, h, halive, hfound⟩, hfilled.after_found⟩
    · rcases ih hempty with ⟨hnever, hstays⟩ | ⟨f, hfinds, hkeeps⟩
      · exact .inl ⟨hnever.cons hmissed, hstays⟩
      · exact .inr ⟨f, hfinds.cons, hkeeps⟩

end

/-- **Dependencies are looked up at the bindings of their keys.**  A dependency one of whose keys is
bound is looked up as the first such key, and nothing changes.  Any other is looked up as its own key
would be by the construction that is had for it; a lookup by the key finds the same from then on, and
the only error is that of the cycle check.  If no construction is had, a qualified dependency is absent,
and any other fails as its key does.  A dependency that is put off is not looked up at first.  A supplier
of it does so at each pull until one finds something; an absent dependency is an error then.  It keeps
what it has found first, whatever is registered or called later. -/
theorem State.dependency_agrees (s : State) (p : InjectionPoint) :
    (∀ before key after b, p.candidates = before ++ key :: after →
      (∀ other ∈ before, s.tables.binding? other = none) → s.tables.binding? key = some b →
        dependencyFactory p s = (.ok (some b.factory), s) ∧ getFactory key s = (.ok b.factory, s)) ∧
    ((∀ key ∈ p.candidates, s.tables.binding? key = none) →
      (∀ maker, p.construction.or (s.tables.construction? p.key.type) = some maker →
        dependencyFactory p s =
            (some <$> getFactoryBy (some maker) p.key : Assemble (Option Factory)) s ∧
          (s.tables.construction? p.key.type = some maker →
            getFactoryBy (some maker) p.key s = getFactory p.key s) ∧
          ((∃ f t, dependencyFactory p s = (.ok (some f), t) ∧ getFactory p.key t = (.ok f, t)) ∨
            ∃ chain, dependencyFactory p s = (.error (.error (.circularDependency chain)), s))) ∧
      (p.construction.or (s.tables.construction? p.key.type) = none →
        dependencyFactory p s =
          if p.key.qualifier.isSome then (.ok none, s)
          else (.error (.error (.noConstruction p.key)), s))) ∧
    (p.deferred → ∀ given context, ∃ context', resolveDependency given p context s =
      (.ok (.deferred (.dependency p), context'), s)) ∧
    (∀ call supplier, s.Supplies supplier.id { lookup := .dependency p } →
      pull call supplier s =
        if s.alive then
          match dependencyFactory p s with
          | (.ok (some f), t) => giveBy call supplier f (fillSupplier supplier.id f t).2
          | (.ok none, t) => (.error (.error (.noConstruction p.key)), t)
          | (.error stop, t) => (.error stop, t)
        else (.error (.error (.injectorDropped p.key)), s)) ∧
    ∀ id rs, s.Supplies id { lookup := .dependency p } →
      s.NeverFinds id p rs ∧ State.Supplies id { lookup := .dependency p } (s.after rs) ∨
        ∃ f, s.FirstFinds id p rs f ∧ ∀ call supplier, supplier.id = id →
          pull call supplier (s.after rs) = giveBy call supplier f (s.after rs) := by
  refine ⟨fun _ _ _ _ hcandidates => dependencyFactory_first hcandidates, fun hunbound => ⟨?_, ?_⟩,
    fun hdeferred given context => ?_, fun call supplier => pull_dependency call, fun id rs h => ?_⟩
  · intro maker hmaker
    refine ⟨dependencyFactory_by hunbound hmaker, fun hregistered => ?_,
      dependencyFactory_found hunbound hmaker⟩
    rw [getFactory_eq_by, hregistered]
  · intro hnone
    rw [dependencyFactory_unbound (chosen?_eq_none_iff.mpr hunbound), hnone]
  · unfold resolveDependency
    rw [if_pos hdeferred]
    exact ⟨_, rfl⟩
  · refine (after_supplier h rs).imp_right fun ⟨f, hfinds, hkeeps⟩ => ⟨f, hfinds, ?_⟩
    rintro call supplier rfl
    exact pull_found hkeeps

def InjectionPoint.later : InjectionPoint :=
  { InjectionPoint.dependency "alpha" ⟨"Alpha"⟩ with deferred := true }

/-- Somebody holds a supplier of a type that is not registered yet. -/
def State.waiting : State :=
  State.after (.initial [(⟨"Beta"⟩, { Construction.plain ⟨"Beta"⟩ with
      parameters := [.later], takes := [InjectionPoint.later.defaultTake] })] {} [])
    [.registerConstruction ⟨"Beta"⟩ ⟨"Beta"⟩, .getInstance (.of ⟨"Beta"⟩)]

theorem State.waiting_supplies : State.waiting.Supplies 0 { lookup := .dependency .later } := by
  have hshape : (State.waiting.suppliers[0]?).map (fun c => (c.factory.isSome,
      c.lookup.casesOn (motive := fun _ => Option InjectionPoint) (fun _ _ => none) some
        fun _ _ _ _ => none)) = some (false, some .later) := by decide +kernel
  obtain ⟨⟨lookup, factory⟩, hcell, hparts⟩ := Option.map_eq_some_iff.mp hshape
  cases lookup with
  | dependency p =>
    obtain ⟨hfactory, hp⟩ := Prod.mk.inj hparts
    obtain rfl := Option.isNone_iff_eq_none.mp (Option.isSome_eq_false_iff.mp hfactory)
    cases hp
    exact hcell
  | resolved key f => cases (Prod.mk.inj hparts).2
  | numbered id key failures f => cases (Prod.mk.inj hparts).2

/-- A supplier is pulled in vain before the type is registered, and finds its construction
afterwards. -/
theorem dependency_agrees_later :
    let supplier : Supplier := { id := 0, key := .of ⟨"Alpha"⟩, type := ⟨"Alpha"⟩ }
    let rs : List Request :=
      [.pull supplier, .registerConstruction ⟨"Alpha"⟩ ⟨"Alpha"⟩, .pull supplier]
    ∃ f, State.waiting.FirstFinds 0 .later rs f ∧ pullNow supplier (State.waiting.after rs) =
      giveBy Factory.call supplier f (State.waiting.after rs) := by
  intro supplier rs
  obtain ⟨-, -, -, -, hfinds⟩ := State.waiting.dependency_agrees .later
  rcases hfinds 0 rs State.waiting_supplies with ⟨hnever, -⟩ | ⟨f, hfirst, hgives⟩
  · let before := State.waiting.after [.pull supplier, .registerConstruction ⟨"Alpha"⟩ ⟨"Alpha"⟩]
    have hfound : before.alive = true ∧
        (dependencyFactory .later before).1.toOption.join.isSome = true := by decide +kernel
    have hmissed := hnever [.pull supplier, .registerConstruction ⟨"Alpha"⟩ ⟨"Alpha"⟩] supplier []
      rfl rfl hfound.1
    match hrun : dependencyFactory .later before with
    | (.ok (some f), u) => exact absurd hrun (hmissed f u)
    | (.ok none, u) => simp [hrun, Except.toOption] at hfound
    | (.error stop, u) => simp [hrun, Except.toOption] at hfound
  · exact ⟨f, hfirst, hgives Factory.call supplier rfl⟩

end ComponentAssembly

import ComponentAssembly.Proofs.Lookups
import ComponentAssembly.Proofs.Steps

/-!
# What resolution adds to a state

Whatever state a lookup, a call or a configuration starts from, and however it ends, it only adds to
that state:

    s.Grows (callWithin depth f s).2        and so on, for all that resolution does

Bindings stay as they are and new ones are implicit, as in `State.Evolves`.  An instance that a cell
keeps is kept for good, and cells that are being filled are left alone.  New cells are fresh: if two
factories at hand share a cell, then they keep the instance of the same factory (`State.Coherent`).
-/

namespace ComponentAssembly

open Assemble

/-- The cells in which a factory keeps instances, each with the factory that makes them. -/
def Factory.cells : Factory → List (Nat × Factory)
  | guarded _ inner => inner.cells
  | once cell inner => (cell, inner) :: inner.cells
  | memo _ _ inner => inner.cells
  | constant _ => []
  | recipe .. => []
  | method .. => []
  | construct .. => []

theorem Factory.cells_of_isCore {f : Factory} (h : f.isCore) : f.cells = [] := by
  cases f with
  | guarded _ _ => cases h
  | once _ _ => cases h
  | memo _ _ _ => cases h
  | constant _ => rfl
  | recipe _ _ => rfl
  | method _ _ => rfl
  | construct _ _ => rfl

namespace State

/-- The factories of a state: those that are bound, and those that its suppliers have. -/
def Knows (s : State) (f : Factory) : Prop :=
  (∃ b ∈ s.tables.bindings, b.factory = f) ∨
    ∃ c ∈ s.suppliers, c.lookup.factory? = some f ∨ c.factory = some f

/-- The factories of a state and some that are held outside of it. -/
def Has (s : State) (held : List Factory) (f : Factory) : Prop :=
  f ∈ held ∨ s.Knows f

/-- The cells of factories at hand are there, and each keeps the instance of one factory only. -/
def Coherent (s : State) (held : List Factory) : Prop :=
  ∀ f, s.Has held f → ∀ kept ∈ f.cells, kept.1 < s.cells.length ∧
    ∀ g, s.Has held g → ∀ kept' ∈ g.cells, kept'.1 = kept.1 → kept'.2 = kept.2

/-- What a state adds to another. -/
structure Grows (s t : State) : Prop extends s.Evolves t where
  scopes : t.tables.scopes = s.tables.scopes
  cells : s.cells.length ≤ t.cells.length
  contents : ∀ cell i, s.cell? cell = some i → t.cell? cell = some i
  busy : ∀ cell ∈ s.filling, t.cell? cell = s.cell? cell
  coherent : ∀ held, s.Coherent held → t.Coherent held

variable {s t u : State} {held : List Factory}

theorem Grows.refl (s : State) : s.Grows s where
  toEvolves := .refl s
  scopes := rfl
  cells := Nat.le_refl _
  contents _ _ h := h
  busy _ _ := rfl
  coherent _ h := h

theorem Grows.trans (h : s.Grows t) (h' : t.Grows u) : s.Grows u where
  toEvolves := h.toEvolves.trans h'.toEvolves
  scopes := h'.scopes.trans h.scopes
  cells := h.cells.trans h'.cells
  contents cell i hi := h'.contents cell i (h.contents cell i hi)
  busy cell hcell := (h'.busy cell (h.filling.symm ▸ hcell)).trans (h.busy cell hcell)
  coherent held hs := h'.coherent held (h.coherent held hs)

/-! ## Factories at hand -/

theorem Coherent.of_has {held' : List Factory} (h : s.Coherent held)
    (hcells : s.cells.length ≤ t.cells.length)
    (hhas : ∀ f, t.Has held' f → s.Has held f ∨ f.cells = []) : t.Coherent held' := by
  have hold : ∀ f, t.Has held' f → ∀ kept ∈ f.cells, s.Has held f := by
    intro f hf kept hkept
    rcases hhas f hf with hf | hnone
    · exact hf
    · rw [hnone] at hkept
      cases hkept
  intro f hf kept hkept
  obtain ⟨hlt, hsame⟩ := h f (hold f hf kept hkept) kept hkept
  exact ⟨by omega, fun g hg kept' hkept' => hsame g (hold g hg kept' hkept') kept' hkept'⟩

/-- A factory that keeps its instance in a fresh cell may be held. -/
theorem Coherent.fresh (h : s.Coherent held) {f : Factory} (inner : Factory)
    (hfresh : f.cells = [(s.cells.length, inner)]) (hcells : s.cells.length < t.cells.length)
    (hknows : ∀ g, t.Knows g → s.Knows g) : t.Coherent (f :: held) := by
  have hnew : ∀ kept ∈ f.cells, kept = (s.cells.length, inner) := by simp [hfresh]
  have hold : ∀ g, t.Has (f :: held) g → g = f ∨ s.Has held g := by
    rintro g (hg | hg)
    · exact (List.mem_cons.mp hg).imp_right .inl
    · exact .inr (.inr (hknows g hg))
  intro g hg kept hkept
  rcases hold g hg with rfl | hg
  · obtain rfl := hnew kept hkept
    refine ⟨hcells, fun other hother kept' hkept' hsame => ?_⟩
    rcases hold other hother with rfl | hother
    · rw [hnew kept' hkept']
    · have hlt := (h other hother kept' hkept').1
      simp only [hsame, Nat.lt_irrefl] at hlt
  · obtain ⟨hlt, hall⟩ := h g hg kept hkept
    refine ⟨by omega, fun other hother kept' hkept' hsame => ?_⟩
    rcases hold other hother with rfl | hother
    · rw [← hsame, hnew kept' hkept'] at hlt
      exact absurd hlt (Nat.lt_irrefl _)
    · exact hall other hother kept' hkept' hsame

/-- A factory without cells may be held. -/
theorem Coherent.hold (h : s.Coherent held) {f : Factory} (hf : f.cells = []) :
    s.Coherent (f :: held) := by
  refine h.of_has (Nat.le_refl _) fun g hg => ?_
  rcases hg with hg | hg
  · rcases List.mem_cons.mp hg with rfl | hg
    · exact .inr hf
    · exact .inl (.inl hg)
  · exact .inl (.inr hg)

theorem Coherent.sublist (h : s.Coherent held) {fewer : List Factory} (hfewer : fewer ⊆ held) :
    s.Coherent fewer :=
  h.of_has (Nat.le_refl _) fun _ hf => .inl (hf.imp_left fun hmem => hfewer hmem)

/-- A factory that is held may be bound. -/
theorem Coherent.put (h : s.Coherent held) {b : Binding} (hb : b.factory ∈ held) :
    State.Coherent { s with tables := s.tables.put b } held := by
  refine h.of_has (Nat.le_refl _) fun f hf => .inl ?_
  rcases hf with hf | ⟨b', hb', rfl⟩ | hf
  · exact .inl hf
  · rcases mem_put hb' with rfl | hb'
    · exact .inl hb
    · exact .inr (.inl ⟨b', hb', rfl⟩)
  · exact .inr (.inr hf)

/-! ## Changes that only add -/

/-- A change of what growth does not look at. -/
theorem Grows.of_same (hdeclarations : t.declarations = s.declarations) (htables : t.tables = s.tables)
    (hinProgress : t.inProgress = s.inProgress) (hfilling : t.filling = s.filling)
    (hcells : t.cells = s.cells) (hsuppliers : t.suppliers = s.suppliers) : s.Grows t where
  declarations := hdeclarations
  constructions := by rw [htables]
  kept _ _ h := by rw [htables]; exact h
  added _ _ h := by rw [htables] at h; exact .inl h
  owners _ _ h := by unfold owner? at h ⊢; rw [hcells]; exact h
  inProgress := hinProgress
  filling := hfilling
  scopes := by rw [htables]
  cells := by rw [hcells]
  contents _ _ h := by unfold cell? at h ⊢; rw [hcells]; exact h
  busy _ _ := by unfold cell?; rw [hcells]
  coherent held h := by
    refine h.of_has (by rw [hcells]) fun f hf => .inl ?_
    unfold Has Knows at hf ⊢
    rw [htables, hsuppliers] at hf
    exact hf

theorem Grows.of_suppliers {suppliers : List SupplierCell}
    (hsuppliers : ∀ c ∈ suppliers, ∀ f, c.lookup.factory? = some f ∨ c.factory = some f →
      s.Knows f ∨ f.cells = []) :
    s.Grows { s with suppliers } where
  toEvolves := ⟨rfl, rfl, fun _ _ h => h, fun _ _ h => .inl h, fun _ _ h => h, rfl, rfl⟩
  scopes := rfl
  cells := Nat.le_refl _
  contents _ _ h := h
  busy _ _ := rfl
  coherent held h := by
    refine h.of_has (Nat.le_refl _) fun f hf => ?_
    rcases hf with hf | hf | ⟨c, hc, hf⟩
    · exact .inl (.inl hf)
    · exact .inl (.inr (.inl hf))
    · exact (hsuppliers c hc f hf).imp_left .inr

theorem grows_newSupplier (s : State) {lookup : Lookup}
    (hlookup : ∀ f, lookup.factory? = some f → s.Knows f ∨ f.cells = []) :
    s.Grows { s with suppliers := s.suppliers ++ [{ lookup }] } := by
  refine .of_suppliers fun c hc f hf => ?_
  rcases List.mem_append.mp hc with hc | hc
  · exact .inl (.inr ⟨c, hc, hf⟩)
  · obtain rfl := List.mem_singleton.mp hc
    exact hlookup f (hf.resolve_right (by simp))

theorem grows_fillSupplier (s : State) (id : Nat) {f : Factory} (hf : s.Knows f) :
    s.Grows (fillSupplier id f s).2 := by
  refine .of_suppliers fun c hc g hg => .inl ?_
  obtain ⟨i, hi⟩ := List.mem_iff_getElem?.mp hc
  rw [List.getElem?_modify] at hi
  obtain ⟨old, hold, heq⟩ := Option.map_eq_some_iff.mp hi
  have hmem : old ∈ s.suppliers := List.mem_of_getElem? hold
  split at heq
  · subst heq
    rcases hg with hg | hg
    · exact .inr ⟨old, hmem, .inl hg⟩
    · cases hg
      exact hf
  · subst heq
    exact .inr ⟨old, hmem, hg⟩

@[simp]
theorem cell?_newCell (s : State) (key : Key) : (newCell key s).2.cell? = s.cell? := by
  funext cell
  show ((s.cells ++ [{ owner := key }])[cell]?).bind (·.kept) = (s.cells[cell]?).bind (·.kept)
  by_cases hlt : cell < s.cells.length
  · rw [List.getElem?_append_left hlt]
  · have hle := Nat.not_lt.mp hlt
    rw [List.getElem?_append_right hle, List.getElem?_eq_none hle]
    cases cell - s.cells.length <;> rfl

theorem knows_fillSupplier {f : Factory} (h : s.Knows f) (id : Nat) :
    (fillSupplier id f s).2.Knows f := by
  rcases h with h | ⟨c, hc, hf⟩
  · exact .inl h
  · obtain ⟨i, hi⟩ := List.mem_iff_getElem?.mp hc
    have hget : (fillSupplier id f s).2.suppliers[i]? =
        some (if id = i then { c with factory := some f } else c) := by
      show (s.suppliers.modify id _)[i]? = _
      rw [List.getElem?_modify, hi]
      split <;> rfl
    refine .inr ⟨_, List.mem_of_getElem? hget, ?_⟩
    split
    · exact .inr rfl
    · exact hf

theorem grows_newCell (s : State) (key : Key) : s.Grows (newCell key s).2 where
  toEvolves := ⟨rfl, rfl, fun _ _ h => h, fun _ _ h => .inl h,
    fun _ _ ho => s.owner?_mono_newCell key ho, rfl, rfl⟩
  scopes := rfl
  cells := by simp [newCell, modifyGet, MonadStateOf.modifyGet, StateT.modifyGet, pure]
  contents cell i hi := by simpa using hi
  busy cell _ := by simp
  coherent held h := by
    refine h.of_has ?_ fun f hf => .inl hf
    simp [newCell, modifyGet, MonadStateOf.modifyGet, StateT.modifyGet, pure]

/-- An unbound key may be bound by resolution, to a factory that may be held. -/
theorem Grows.put_unbound (h : s.Grows t) {b : Binding}
    (hunbound : t.tables.binding? b.key = none) (himplicit : b.origin = .implicit)
    (hheld : ∀ held, s.Coherent held → t.Coherent (b.factory :: held)) :
    s.Grows { t with tables := t.tables.put b } where
  toEvolves := h.toEvolves.trans (.put_unbound hunbound himplicit)
  scopes := by
    rw [put_of_unbound hunbound]
    exact h.scopes
  cells := h.cells
  contents := h.contents
  busy := h.busy
  coherent held hs := ((hheld held hs).put List.mem_cons_self).sublist (List.subset_cons_self _ _)

/-- The keys in progress are put back to those before. -/
theorem Grows.leave {key : Key}
    (h : State.Grows { s with inProgress := s.inProgress ++ [key] } t) :
    s.Grows { t with inProgress := t.inProgress.take s.inProgress.length } where
  declarations := h.declarations
  constructions := h.constructions
  kept := h.kept
  added := h.added
  owners := h.owners
  inProgress := by
    rw [h.inProgress]
    simp
  filling := h.filling
  scopes := h.scopes
  cells := h.cells
  contents := h.contents
  busy := h.busy
  coherent := h.coherent

@[simp]
theorem cell?_fillCell_of_ne (s : State) {cell other : Nat} (value : Instance) (hne : other ≠ cell) :
    (fillCell cell value s).2.cell? other = s.cell? other := by
  show ((s.cells.modify cell _)[other]?).bind (·.kept) = _
  rw [List.getElem?_modify_ne _ _ (Ne.symm hne)]
  rfl

@[simp]
theorem cell?_fillCell (s : State) {cell : Nat} (value : Instance) (hcell : cell < s.cells.length) :
    (fillCell cell value s).2.cell? cell = some value := by
  show ((s.cells.modify cell _)[cell]?).bind (·.kept) = _
  rw [List.getElem?_modify_eq, List.getElem?_eq_getElem hcell]
  rfl

/-- The cells being filled are put back to those before.  The cell that was empty may be filled. -/
theorem Grows.endFilling {cell : Nat} (hfresh : cell ∉ s.filling) (hempty : s.cell? cell = none)
    (h : State.Grows { s with filling := s.filling ++ [cell] } t)
    (hcells : u.cells.length = t.cells.length)
    (hothers : ∀ other, other ≠ cell → u.cell? other = t.cell? other) (howner : u.owner? = t.owner?)
    (hu : u = { t with cells := u.cells }) :
    s.Grows { u with filling := u.filling.erase cell } where
  declarations := by rw [hu]; exact h.declarations
  constructions := by rw [hu]; exact h.constructions
  kept := by rw [hu]; exact h.kept
  added := by rw [hu]; exact h.added
  owners other key ho := by
    show u.owner? other = some key
    rw [howner]
    exact h.owners other key ho
  inProgress := by rw [hu]; exact h.inProgress
  filling := by
    have hfilling : u.filling = s.filling ++ [cell] := by rw [hu]; exact h.filling
    rw [hfilling, List.erase_append_right _ hfresh]
    simp
  scopes := by rw [hu]; exact h.scopes
  cells := by
    show _ ≤ u.cells.length
    rw [hcells]
    exact h.cells
  contents other i hi := by
    have hne : other ≠ cell := by
      rintro rfl
      rw [hempty] at hi
      cases hi
    exact (hothers other hne).trans (h.contents other i hi)
  busy other hother := by
    have hne : other ≠ cell := by
      rintro rfl
      exact hfresh hother
    exact (hothers other hne).trans (h.busy other (List.mem_append_left _ hother))
  coherent held hs := by
    refine (h.coherent held hs).of_has (by rw [← hcells]) fun f hf => .inl ?_
    rw [hu] at hf
    exact hf

end State

/-! ## Steps that only add -/

/-- A step only adds to whatever state it starts from. -/
def Growing {α : Type} (m : StateM State α) : Prop :=
  ∀ s : State, s.Grows (m s).2

namespace Growing

variable {α β : Type}

theorem keeps {m : StateM State α} (h : Growing m) (s : State) : Keeps s.Grows m :=
  fun t ht => ht.trans (h t)

theorem bind {m : StateM State α} {f : α → StateM State β} (h : Growing m)
    (hf : ∀ a, Growing (f a)) : Growing (m >>= f) :=
  fun s => (h s).trans (hf _ _)

theorem ok (a : α) : Growing (pure a : Assemble α) :=
  fun s => .refl s

theorem stop (stop : Stop) : Growing (throw stop : Assemble α) :=
  fun s => .refl s

theorem ofExcept (r : Except AssemblyError α) : Growing (Assemble.ofExcept r) := by
  cases r with
  | ok a => exact ok a
  | error cause => exact stop _

theorem journal (step : StateM Journal α) : Growing (Assemble.journal step) :=
  fun _ => .of_same rfl rfl rfl rfl rfl rfl

theorem andThen {m : Assemble α} {f : α → Assemble β} (h : Growing m) (hf : ∀ a, Growing (f a)) :
    Growing (m >>= f : Assemble β) :=
  fun s => Keeps.andThen (h.keeps s) (fun a => (hf a).keeps s) s (.refl s)

theorem attempt {m : Assemble α} (h : Growing m) : Growing (Assemble.attempt m) := by
  refine bind h fun r => ?_
  match r with
  | .ok a => exact fun s => .refl s
  | .error (.error cause) => exact fun s => .refl s
  | .error .exhausted => exact fun s => .refl s

end Growing

/-! ## Lookups -/

/-- A lookup only adds to a state, and gives a factory that the state then knows. -/
structure State.Discovers (s : State) (m : Assemble Factory) : Prop where
  grows : s.Grows (m s).2
  knows : ∀ f, (m s).1 = .ok f → (m s).2.Knows f

namespace State

variable {s t : State}

theorem Discovers.of_ok {m : Assemble Factory} {f : Factory} (hm : m s = (.ok f, t))
    (hgrows : s.Grows t) (hf : t.Knows f) : s.Discovers m where
  grows := by
    rw [hm]
    exact hgrows
  knows g hg := by
    rw [hm] at hg ⊢
    cases hg
    exact hf

theorem Discovers.of_error {m : Assemble Factory} {stop : Stop} (hm : m s = (.error stop, t))
    (hgrows : s.Grows t) : s.Discovers m where
  grows := by
    rw [hm]
    exact hgrows
  knows g hg := by
    rw [hm] at hg
    cases hg

theorem knows_of_binding? {key : Key} {b : Binding} (h : s.tables.binding? key = some b) :
    s.Knows b.factory :=
  .inl ⟨b, (mem_of_binding? h).1, rfl⟩

/-- What a scope makes of a factory without cells may be held. -/
theorem wrapIn_grows (s : State) (scope : Scope) (key guard : Key) (inner : Factory)
    (hinner : inner.cells = []) :
    ∃ kept t, wrapIn scope key inner s = (.ok kept, t) ∧ s.Grows t ∧
      ∀ held, s.Coherent held → t.Coherent (.guarded guard kept :: held) := by
  cases scope with
  | unscoped => exact ⟨inner, s, rfl, .refl s, fun held h => h.hold hinner⟩
  | singleton =>
    refine ⟨_, _, rfl, grows_newCell s key, fun held h => h.fresh inner ?_ ?_ fun _ hg => hg⟩
    · simp only [Factory.cells, hinner]
    · simp
  | memo store =>
    refine ⟨_, _, rfl, .of_same rfl rfl rfl rfl rfl rfl, fun held h => ?_⟩
    exact Coherent.of_has (h.hold (f := .guarded guard (.memo store key inner)) hinner) (Nat.le_refl _)
      fun _ hf => .inl hf

theorem implicitFactory_discovers (s : State) (key : Key) (maker : TypePath) :
    s.Discovers (implicitFactory key maker) := by
  cases hcheck : s.checkAcyclic key (s.declared maker) with
  | error stop => exact .of_error (implicitFactory_error hcheck) (.refl s)
  | ok _ =>
    obtain ⟨log, told, hrun⟩ := implicitFactory_passed hcheck
    have hlogged : s.Grows { s with journal := { s.journal with log } } :=
      .of_same rfl rfl rfl rfl rfl rfl
    obtain ⟨kept, t, hwrap, hgrows, hheld⟩ := wrapIn_grows
      { s with journal := { s.journal with log } } (s.tables.scopeOf (s.declared maker).scope) key key
      (.construct key (s.declared maker)) rfl
    have hgrows := hlogged.trans hgrows
    have hrun := hrun kept t hwrap
    cases hb : t.tables.binding? key with
    | some b =>
      rw [hb] at hrun
      exact .of_ok hrun hgrows (knows_of_binding? hb)
    | none =>
      rw [hb] at hrun
      have hput := (hgrows.put_unbound (b := { key, factory := .guarded key kept, origin := .implicit })
        hb rfl fun held h => hheld held (hlogged.coherent held h)).trans
          (.of_same (t := { t with
            journal := { t.journal with log := t.journal.log ++ told }
            tables := t.tables.put { key, factory := .guarded key kept, origin := .implicit } })
            rfl rfl rfl rfl rfl rfl)
      have hbound : (t.tables.put { key, factory := .guarded key kept, origin := .implicit }).binding?
          key = some { key, factory := .guarded key kept, origin := .implicit } := by simp
      exact .of_ok hrun hput (.inl ⟨_, (mem_of_binding? hbound).1, rfl⟩)

theorem getFactory_discovers (s : State) (key : Key) : s.Discovers (getFactory key) := by
  cases hb : s.tables.binding? key with
  | some b => exact .of_ok (getFactory_bound hb) (.refl s) (knows_of_binding? hb)
  | none =>
    have hrun := getFactory_unbound hb
    cases hmaker : s.tables.construction? key.type with
    | none =>
      rw [hmaker] at hrun
      exact .of_error hrun (.refl s)
    | some maker =>
      have hrun : getFactory key s = implicitFactory key maker s := by rw [hrun, hmaker]
      obtain ⟨hgrows, hknows⟩ := s.implicitFactory_discovers key maker
      refine ⟨?_, fun f hf => ?_⟩
      · rw [hrun]
        exact hgrows
      · rw [hrun] at hf ⊢
        exact hknows f hf

/-- The lookup of a dependency only adds to a state, which then knows the factory that is found. -/
theorem dependencyFactory_discovers (s : State) (p : InjectionPoint) :
    s.Grows (dependencyFactory p s).2 ∧
      ∀ f, (dependencyFactory p s).1 = .ok (some f) → (dependencyFactory p s).2.Knows f := by
  cases hb : s.chosen? p with
  | some b =>
    rw [dependencyFactory_chosen hb]
    refine ⟨.refl s, fun f hf => ?_⟩
    cases hf
    exact .inl ⟨b, mem_of_chosen? hb, rfl⟩
  | none =>
    rw [dependencyFactory_unbound hb]
    cases p.construction.or (s.tables.construction? p.key.type) with
    | none =>
      dsimp only
      split
      · exact ⟨.refl s, fun f hf => by cases hf⟩
      · exact ⟨.refl s, fun f hf => by cases hf⟩
    | some maker =>
      obtain ⟨hgrows, hknows⟩ := s.implicitFactory_discovers p.key maker
      dsimp only
      cases hrun : implicitFactory p.key maker s with
      | mk r t =>
        rw [hrun] at hgrows hknows
        cases r with
        | error stop =>
          simp only [run_map, hrun]
          exact ⟨hgrows, fun f hf => by cases hf⟩
        | ok found =>
          simp only [run_map, hrun]
          refine ⟨hgrows, fun f hf => ?_⟩
          cases hf
          exact hknows found rfl

/-- A supplier finds a factory that the state knows, if it does so of the one in the supplier. -/
theorem findFactory_discovers (s : State) (lookup : Lookup)
    (hlookup : ∀ f, lookup.factory? = some f → s.Knows f) : s.Discovers (findFactory lookup) := by
  cases lookup with
  | resolved key f => exact .of_ok rfl (.refl s) (hlookup f rfl)
  | dependency p =>
    obtain ⟨hgrows, hknows⟩ := s.dependencyFactory_discovers p
    have hrun := s.findFactory_dependency_eq p
    cases halive : s.alive with
    | false =>
      rw [halive] at hrun
      exact .of_error hrun (.refl s)
    | true =>
      cases hfound : dependencyFactory p s with
      | mk r t =>
        rw [halive, hfound] at hrun
        rw [hfound] at hgrows hknows
        match r with
        | .error stop => exact .of_error hrun hgrows
        | .ok none => exact .of_error hrun hgrows
        | .ok (some f) => exact .of_ok hrun hgrows (hknows f rfl)
  | numbered id key failures f =>
    have hrun := s.findFactory_numbered id key failures f
    split at hrun
    · exact .of_error hrun (.of_same rfl rfl rfl rfl rfl rfl)
    · exact .of_ok hrun (.of_same rfl rfl rfl rfl rfl rfl) (hlookup f rfl)

end State

def Assemble.factoryOf (s : Supplier) : Assemble Factory := do
  match (← get).suppliers[s.id]? with
  | none => raise (.noConstruction s.key)
  | some cell =>
    match cell.factory with
    | some f => return f
    | none =>
      let f ← findFactory cell.lookup
      State.fillSupplier s.id f
      return f

/-- A supplier calls its factory. -/
theorem pull_eq (call : Factory → Assemble Instance) (s : Supplier) :
    pull call s = (do
      let i ← call (← factoryOf s)
      ofExcept (i.downcast s.type s.key.text) : Assemble Instance) := by
  unfold pull factoryOf
  simp only [bind_assoc]
  congr 1
  funext state
  cases state.suppliers[s.id]? with
  | none => rfl
  | some cell =>
    obtain ⟨lookup, factory⟩ := cell
    cases factory with
    | some f => simp only [pure_bind]
    | none => simp only [bind_assoc, pure_bind]

namespace State

variable {s : State} {supplier : Supplier} {lookup : Lookup}

/-- A supplier that has found its factory keeps it. -/
theorem factoryOf_found {f : Factory}
    (h : s.suppliers[supplier.id]? = some { lookup, factory := some f }) :
    factoryOf supplier s = (.ok f, s) := by
  simp [factoryOf, h]

/-- A supplier that has not found its factory looks it up. -/
theorem factoryOf_empty (h : s.suppliers[supplier.id]? = some { lookup }) :
    factoryOf supplier s = match findFactory lookup s with
      | (.ok f, t) => (.ok f, (fillSupplier supplier.id f t).2)
      | (.error stop, t) => (.error stop, t) := by
  rcases hfound : findFactory lookup s with ⟨_ | _, _⟩ <;> simp [factoryOf, h, hfound]

theorem factoryOf_missing (h : s.suppliers[supplier.id]? = none) :
    factoryOf supplier s = (.error (.error (.noConstruction supplier.key)), s) := by
  simp [factoryOf, h]

theorem factoryOf_discovers (s : State) (supplier : Supplier) : s.Discovers (factoryOf supplier) := by
  cases hcell : s.suppliers[supplier.id]? with
  | none => exact .of_error (factoryOf_missing hcell) (.refl s)
  | some cell =>
    have hmem := List.mem_of_getElem? hcell
    obtain ⟨lookup, factory⟩ := cell
    cases factory with
    | some f => exact .of_ok (factoryOf_found hcell) (.refl s) (.inr ⟨_, hmem, .inr rfl⟩)
    | none =>
      have hrun := factoryOf_empty hcell
      obtain ⟨hgrows, hknows⟩ := s.findFactory_discovers lookup fun f hf => .inr ⟨_, hmem, .inl hf⟩
      cases hfound : findFactory lookup s with
      | mk r t =>
        rw [hfound] at hgrows hknows hrun
        cases r with
        | error stop => exact .of_error hrun hgrows
        | ok f =>
          have hf := hknows f rfl
          exact .of_ok hrun (hgrows.trans (t.grows_fillSupplier supplier.id hf))
            (knows_fillSupplier hf supplier.id)

end State

/-! ## Answers of an injector -/

/-- Steps that ask for nothing only add to a state. -/
theorem State.grows_keeps (s : State) : Remit.free.Keeps s.Grows where
  quiet _ _ _ _ _ ht := ht.trans (.of_same rfl rfl rfl rfl rfl rfl)
  failure _ _ _ _ ht := ht.trans (.of_same rfl rfl rfl rfl rfl rfl)
  note _ _ _ ht := ht.trans (.of_same rfl rfl rfl rfl rfl rfl)
  component _ _ ht := ⟨ht.trans (.of_same rfl rfl rfl rfl rfl rfl), trivial⟩
  trials _ _ ht := ht.trans (.of_same rfl rfl rfl rfl rfl rfl)
  counters _ _ ht := ht.trans (.of_same rfl rfl rfl rfl rfl rfl)
  supplier t lookup ht hlookup := by
    refine ht.trans (t.grows_newSupplier fun f hf => .inr ?_)
    rcases hlookup with hlookup | ⟨key, i, rfl⟩
    · cases lookup with
      | dependency p => cases hf
      | resolved _ _ => cases hlookup
      | numbered _ _ _ _ => cases hlookup
    · cases hf
      rfl
  reads _ _ := trivial

namespace Growing

variable {call : Factory → Assemble Instance}

theorem read {α : Type} {f : State → Assemble α} (hf : ∀ s, Growing (f s)) :
    Growing (get >>= f : Assemble α) :=
  fun s => hf s s

theorem pull (hcall : ∀ f, Growing (call f)) (s : Supplier) : Growing (Assemble.pull call s) := by
  rw [pull_eq]
  refine andThen (fun t => (t.factoryOf_discovers s).grows) fun f => ?_
  exact andThen (hcall f) fun i => ofExcept _

theorem currentSubstitutor (hcall : ∀ f, Growing (call f)) :
    Growing (Assemble.currentSubstitutor call) := by
  refine read fun s => ?_
  cases s.factory? Substitutor.key with
  | none => exact ok none
  | some f =>
    refine andThen (attempt (andThen (hcall f) fun i => ofExcept _)) fun r => ?_
    cases r with
    | ok i =>
      dsimp only
      split <;> exact ok _
    | error cause => exact andThen (journal _) fun _ => ok none

theorem supply (hcall : ∀ f, Growing (call f)) (p : InjectionPoint) :
    Growing ((Provider.of call).supply p) := by
  refine andThen (fun s => (s.dependencyFactory_discovers p).1) fun found => ?_
  cases found with
  | none => exact ok none
  | some f => exact andThen (hcall f) fun _ => ok _

/-- The answers of an injector only add to its state, if calls do. -/
theorem provider_keeps (hcall : ∀ f, Growing (call f)) (s : State) :
    (Provider.of call).Keeps .free s.Grows :=
  .answers (fun _ => trivial) ((currentSubstitutor hcall).keeps s) (fun p => (supply hcall p).keeps s)
    (fun key => (andThen (fun t => (t.getFactory_discovers key).grows) hcall).keeps s)
    fun _ _ => (andThen (fun t => t.grows_newSupplier fun f hf => by cases hf)
      (pull hcall)).keeps s

/-- Programs that ask an injector only add to its state, if calls do. -/
theorem program (hcall : ∀ f, Growing (call f)) {α : Type} [Stoppable α] {Q : α → Prop}
    {m : Provider → StateM State α} (hm : Program .free Q m) : Growing (m (Provider.of call)) :=
  fun s => (Program.keeps s.grows_keeps (provider_keeps hcall s) hm s (.refl s)).1

end Growing

/-! ## Keeping instances -/

namespace Assemble

/-- The instance that a cell keeps, or else the one that is made to be kept. -/
def keepIn (cell : Nat) (make : Assemble Instance) : Assemble Instance := do
  match (← get).cell? cell with
  | some i => return i
  | none => whileFilling cell do
    let i ← make
    State.fillCell cell i
    return i

/-- The instance of a key that a store keeps, or else the one that is made; an instance that has been
stored meanwhile is preferred. -/
def keepBy (store : Nat) (key : Key) (make : Assemble Instance) : Assemble Instance := do
  match (← get).stored? store key with
  | some i => return i
  | none =>
    let i ← make
    match (← get).stored? store key with
    | some earlier => return earlier
    | none =>
      State.fillStore store key i
      return i

variable {s t : State} {cell : Nat} {make : Assemble Instance}

theorem keepIn_full {i : Instance} (h : s.cell? cell = some i) :
    keepIn cell make s = (.ok i, s) := by
  simp [keepIn, h]

theorem keepIn_busy (h : s.cell? cell = none) (hbusy : cell ∈ s.filling) :
    keepIn cell make s = (.error .exhausted, s) := by
  simp [keepIn, whileFilling, h, hbusy]

theorem keepIn_empty (h : s.cell? cell = none) (hfresh : cell ∉ s.filling) :
    keepIn cell make s = (let r := (do
        let i ← make
        State.fillCell cell i
        return i : Assemble Instance) { s with filling := s.filling ++ [cell] }
      (r.1, { r.2 with filling := r.2.filling.erase cell })) := by
  rw [keepIn, run_bind, run_get]
  simp only [h]
  exact if_neg hfresh

theorem keepIn_failed (h : s.cell? cell = none) (hfresh : cell ∉ s.filling) {stop : Stop}
    (hmake : make { s with filling := s.filling ++ [cell] } = (.error stop, t)) :
    keepIn cell make s = (.error stop, { t with filling := t.filling.erase cell }) := by
  simp [keepIn_empty h hfresh, hmake]

theorem keepIn_filled (h : s.cell? cell = none) (hfresh : cell ∉ s.filling) {i : Instance}
    (hmake : make { s with filling := s.filling ++ [cell] } = (.ok i, t)) :
    keepIn cell make s = (.ok i, { (State.fillCell cell i t).2 with
      filling := (State.fillCell cell i t).2.filling.erase cell }) := by
  simp [keepIn_empty h hfresh, hmake]

/-- It depends on what is made for the cell only where that is attempted. -/
theorem keepIn_same {make' : Assemble Instance}
    (hmake : make { s with filling := s.filling ++ [cell] } =
      make' { s with filling := s.filling ++ [cell] }) :
    keepIn cell make s = keepIn cell make' s := by
  cases h : s.cell? cell with
  | some i => rw [keepIn_full h, keepIn_full h]
  | none =>
    by_cases hbusy : cell ∈ s.filling
    · rw [keepIn_busy h hbusy, keepIn_busy h hbusy]
    · cases hrun : make' { s with filling := s.filling ++ [cell] } with
      | mk r t =>
        rw [hrun] at hmake
        cases r with
        | error stop => rw [keepIn_failed h hbusy hmake, keepIn_failed h hbusy hrun]
        | ok i => rw [keepIn_filled h hbusy hmake, keepIn_filled h hbusy hrun]

end Assemble

/-! ## Calls -/

namespace Growing

variable {given : Provider}

theorem withGuard {m : Assemble Instance} (hm : Growing m) (key : Key) :
    Growing (Assemble.withGuard key m) := by
  intro s
  cases hchain : cycleChain s.inProgress key with
  | some chain =>
    rw [withGuard_circular hchain]
    exact .refl s
  | none =>
    rw [withGuard_entered hchain]
    exact (hm _).leave

/-- A cell that is full gives its instance; an empty one is filled, unless it is being filled. -/
theorem keepIn {make : Assemble Instance} (hmake : Growing make) (cell : Nat) :
    Growing (Assemble.keepIn cell make) := by
  intro s
  cases hempty : s.cell? cell with
  | some i =>
    rw [keepIn_full hempty]
    exact .refl s
  | none =>
    by_cases hbusy : cell ∈ s.filling
    · rw [keepIn_busy hempty hbusy]
      exact .refl s
    · have hgrows := hmake { s with filling := s.filling ++ [cell] }
      cases hrun : make { s with filling := s.filling ++ [cell] } with
      | mk r t =>
        rw [hrun] at hgrows
        cases r with
        | error stop =>
          rw [keepIn_failed hempty hbusy hrun]
          exact hgrows.endFilling hbusy hempty rfl (fun _ _ => rfl) rfl rfl
        | ok i =>
          rw [keepIn_filled hempty hbusy hrun]
          exact hgrows.endFilling hbusy hempty (List.length_modify _ _ _)
            (fun other hne => State.cell?_fillCell_of_ne t i hne) (State.owner?_fillCell cell i) rfl

theorem keepBy {make : Assemble Instance} (hmake : Growing make) (store : Nat) (key : Key) :
    Growing (Assemble.keepBy store key make) := by
  refine read fun s => ?_
  cases s.stored? store key with
  | some i => exact ok i
  | none =>
    refine andThen hmake fun i => read fun t => ?_
    cases t.stored? store key with
    | some earlier => exact ok earlier
    | none => exact fun u => .of_same rfl rfl rfl rfl rfl rfl

theorem run {call : Factory → Assemble Instance} (hcall : ∀ f, Growing (call f)) (f : Factory) :
    Growing (f.run (Provider.of call)) := by
  have hcore : ∀ f : Factory, f.isCore → Growing (f.run (Provider.of call)) := fun f hf =>
    program hcall (Program.run_core hf (fun _ _ => trivial) (fun _ _ _ _ _ => trivial))
  induction f with
  | guarded key inner ih => exact withGuard ih key
  | once cell inner ih => exact keepIn ih cell
  | memo store key inner ih => exact keepBy ih store key
  | constant i => exact hcore _ rfl
  | recipe r rewrap => exact hcore _ rfl
  | method key r => exact hcore _ rfl
  | construct key c => exact hcore _ rfl

/-- **Calls only add.**  However deep a call may go, and whether it fails or not, it only adds to the
state that it starts from. -/
theorem callWithin (depth : Nat) (f : Factory) : Growing (ComponentAssembly.callWithin depth f) := by
  induction depth generalizing f with
  | zero => exact stop _
  | succ depth ih => exact run ih f

theorem call (f : Factory) : Growing f.call :=
  read fun s => callWithin (s.depthFor f) f

theorem getSupplier (key : Key) (type : TypePath) : Growing (Assemble.getSupplier key type) := by
  intro s
  obtain ⟨hgrows, hknows⟩ := s.getFactory_discovers key
  cases hrun : Assemble.getFactory key s with
  | mk r t =>
    rw [hrun] at hgrows hknows
    simp only [Assemble.getSupplier, run_bind, hrun]
    cases r with
    | error stop => exact hgrows
    | ok f =>
      refine hgrows.trans (t.grows_newSupplier fun g hg => .inl ?_)
      cases hg
      exact hknows f rfl

theorem configure (n : Node Instance) : Growing (Assemble.configure n) := fun s =>
  program (callWithin (s.knownKeys.length + 2))
    (Program.configureNode n n.name trivial fun _ _ _ _ _ => trivial) s

end Growing

end ComponentAssembly

import ComponentAssembly.Proofs.Reinstallation
import ComponentAssembly.Proofs.Suppliers

/-!
# What is left when the injector is gone

Factories and suppliers may be held longer than the injector.  Constructions and module methods ask
whether it is still there before they do anything else, and recipes do so before they gather.  So once
the injector is released, no factory looks anything up, and of what implicit bindings and module methods
are bound to, in the scopes of the library (`Factory.Made`), only the instances are left that were in
cells at that time:

    guarded key (once cell _)     the instance that the cell kept, or else injectorDropped key
    guarded key _                 injectorDropped key
    supplier, looked up           as its factory, if the type is right
    supplier, not looked up       injectorDropped of the key of the dependency

The cells themselves are left alone, because who shares a cell shares what fills it
(`State.Coherent`).  `Reachable.released_gives_kept` has it for all calls and pulls after the release.
-/

namespace ComponentAssembly

open Assemble

/-! ## Factories that need the injector -/

namespace Factory

/-- The key in whose name a factory without layers asks whether the injector is there. -/
def dependent? : Factory → Option Key
  | method key _ => some key
  | construct key _ => some key
  | _ => none

/-- What implicit bindings and module methods are bound to in the scopes of the library: a factory that
needs the injector, guarded, and maybe kept in a cell. -/
inductive Made (key : Key) : Factory → Prop
  | unscoped {core : Factory} (h : core.dependent? = some key) : Made key (.guarded key core)
  | singleton {core : Factory} (h : core.dependent? = some key) (cell : Nat) :
    Made key (.guarded key (.once cell core))

/-- The instance that a factory keeps in a cell. -/
def heldIn (f : Factory) (s : State) : Option Instance :=
  f.kept?.bind fun kept => s.cell? kept.1

theorem heldIn_core {core : Factory} {key : Key} (h : core.dependent? = some key) (s : State) :
    (Factory.guarded key core).heldIn s = none := by
  cases core <;> first | rfl | cases h

@[simp]
theorem heldIn_once (key : Key) (cell : Nat) (core : Factory) (s : State) :
    (Factory.guarded key (.once cell core)).heldIn s = s.cell? cell := rfl

/-- What is left of a factory: the instance that it keeps, or else the error that says for which key the
injector would be needed. -/
def leftIn (f : Factory) (key : Key) (s : State) : Assemble Instance :=
  match f.heldIn s with
  | some i => return i
  | none => raise (.injectorDropped key)

/-- Whether a factory keeps its instances in a store. -/
def usesStore : Factory → Bool
  | guarded _ inner => inner.usesStore
  | memo .. => true
  | _ => false

end Factory

theorem Factory.Kept.made {core kept : Factory} {key : Key} (h : Factory.Kept core kept)
    (hcore : core.dependent? = some key) (hscope : (Factory.guarded key kept).usesStore = false) :
    (Factory.guarded key kept).Made key := by
  cases h with
  | bare => exact .unscoped hcore
  | once cell => exact .singleton hcore cell
  | memo store _ => cases hscope

theorem Scope.Wraps.kept {scope : Scope} {s t : State} {key : Key} {inner kept : Factory}
    (h : scope.Wraps s t key inner kept) : Factory.Kept inner kept := by
  cases h with
  | unscoped => exact .bare
  | singleton _ _ => exact .once _
  | memo store => exact .memo store key

/-- How a supplier looks its factory up, and the factory that it has or is known to find. -/
def SupplierCell.leadsTo (c : SupplierCell) : Lookup × Option Factory :=
  (c.lookup, c.factory.or c.lookup.factory?)

namespace State

/-- All factories at hand that keep their instance in a cell need the injector to make it. -/
def Sealed (s : State) (held : List Factory) (cell : Nat) : Prop :=
  ∀ f, s.Has held f → ∀ inner, (cell, inner) ∈ f.cells → inner.dependent?.isSome

/-- What stays as it was without an injector: bindings, where suppliers lead to, and some cells. -/
structure Outlives (P : Nat → Prop) (s t : State) : Prop where
  dropped : t.alive = false
  tables : t.tables = s.tables
  suppliers : t.suppliers.map (·.leadsTo) = s.suppliers.map (·.leadsTo)
  cells : ∀ cell, P cell → t.cell? cell = s.cell? cell

variable {P Q : Nat → Prop} {s t u : State} {held : List Factory}

namespace Outlives

theorem refl (hs : s.alive = false) : s.Outlives P s :=
  ⟨hs, rfl, rfl, fun _ _ => rfl⟩

theorem trans (h : s.Outlives P t) (h' : t.Outlives Q u) (hPQ : ∀ cell, P cell → Q cell) :
    s.Outlives P u where
  dropped := h'.dropped
  tables := h'.tables.trans h.tables
  suppliers := h'.suppliers.trans h.suppliers
  cells cell hcell := (h'.cells cell (hPQ cell hcell)).trans (h.cells cell hcell)

/-- Changes elsewhere do not matter. -/
theorem of_same (h : s.Outlives P t) (hdropped : u.alive = t.alive) (htables : u.tables = t.tables)
    (hsuppliers : u.suppliers = t.suppliers) (hcells : u.cells = t.cells) : s.Outlives P u where
  dropped := hdropped.trans h.dropped
  tables := htables.trans h.tables
  suppliers := hsuppliers ▸ h.suppliers
  cells cell hcell := by
    unfold cell?
    rw [hcells]
    exact h.cells cell hcell

/-- No factory comes to hand. -/
theorem has (h : s.Outlives P t) {f : Factory} (hf : t.Has held f) : s.Has held f := by
  rcases hf with hf | ⟨b, hb, rfl⟩ | ⟨c, hc, hf⟩
  · exact .inl hf
  · exact .inr (.inl ⟨b, h.tables ▸ hb, rfl⟩)
  · have hmem := List.mem_map_of_mem (f := SupplierCell.leadsTo) hc
    rw [h.suppliers] at hmem
    obtain ⟨c', hc', hsame⟩ := List.mem_map.mp hmem
    obtain ⟨hlookup, hleads⟩ := Prod.mk.inj hsame
    refine .inr (.inr ⟨c', hc', ?_⟩)
    rcases hf with hf | hf
    · exact .inl (hlookup ▸ hf)
    · rw [hf, Option.some_or] at hleads
      exact (Option.or_eq_some_iff.mp hleads).symm.imp_left And.right

theorem seals (h : s.Outlives P t) {cell : Nat} (hcell : s.Sealed held cell) : t.Sealed held cell :=
  fun f hf => hcell f (h.has hf)

/-- A supplier goes on leading where it did. -/
theorem supplies (h : s.Outlives P t) {id : Nat} {c : SupplierCell} (hc : s.Supplies id c) :
    ∃ c', t.Supplies id c' ∧ c'.leadsTo = c.leadsTo := by
  have hid := congrArg (fun leads => leads[id]?) h.suppliers
  simp only [List.getElem?_map] at hid
  rw [hc] at hid
  obtain ⟨c', hc', hsame⟩ := Option.map_eq_some_iff.mp hid
  exact ⟨c', hc', hsame⟩

end Outlives

end State

/-! ## One call -/

section

variable {given : Provider} {key : Key} {core f : Factory} {s t : State} {P : Nat → Prop}

/-- A factory that needs the injector does nothing without it. -/
theorem run_dependent (hs : s.alive = false) (hcore : core.dependent? = some key) :
    core.run given s = (.error (.error (.injectorDropped key)), s) := by
  cases core with
  | method _ r =>
    cases hcore
    simp [Factory.run, whileAlive, hs]
  | construct _ c =>
    cases hcore
    simp [Factory.run, whileAlive, hs]
  | guarded _ _ => cases hcore
  | once _ _ => cases hcore
  | memo _ _ _ => cases hcore
  | constant _ => cases hcore
  | recipe _ _ => cases hcore

/-- **One call.**  Without an injector a factory that needs it gives the instance that it keeps, if it
does, and fails otherwise.  Nothing happens, and the provider is asked for nothing. -/
theorem Factory.Made.run (hf : f.Made key) (henter : given.enter = withGuard) (hs : s.alive = false)
    (hidle : s.inProgress = []) (hunfilled : s.filling = []) :
    f.run given s = f.leftIn key s s := by
  have hentered : ∀ inner : Factory, (Factory.guarded key inner).run given s =
      ((inner.run given { s with inProgress := [key] }).1,
        { (inner.run given { s with inProgress := [key] }).2 with inProgress := [] }) := by
    intro inner
    have hrun : (Factory.guarded key inner).run given s = withGuard key (inner.run given) s := by
      rw [Factory.run, henter]
    have hchain : cycleChain s.inProgress key = none := by rw [hidle]; rfl
    rw [hrun, withGuard_entered hchain]
    simp only [hidle, List.nil_append, List.length_nil, List.take_zero]
  have hback : { s with inProgress := [] } = s := by rw [← hidle]
  cases hf with
  | @unscoped core hcore =>
    rw [hentered, run_dependent (s := { s with inProgress := [key] }) hs hcore, Factory.leftIn,
      Factory.heldIn_core hcore]
    exact congrArg (Prod.mk _) hback
  | @singleton core hcore cell =>
    have hrun : (Factory.once cell core).run given = keepIn cell (core.run given) := rfl
    rw [hentered, hrun, Factory.leftIn, Factory.heldIn_once]
    cases hcell : s.cell? cell with
    | some i =>
      rw [keepIn_full (s := { s with inProgress := [key] }) hcell]
      exact congrArg (Prod.mk _) hback
    | none =>
      have hfresh : cell ∉ s.filling := by simp [hunfilled]
      rw [keepIn_failed (s := { s with inProgress := [key] }) hcell hfresh (run_dependent hs hcore),
        List.erase_append_right _ hfresh]
      simp only [List.erase_cons_head, List.append_nil]
      exact congrArg (Prod.mk _) hback

theorem Factory.Made.call (hf : f.Made key) (hs : s.alive = false) (hidle : s.inProgress = [])
    (hunfilled : s.filling = []) : f.call s = f.leftIn key s s := by
  obtain ⟨depth, hrun⟩ := f.call_run s
  rw [hrun]
  exact hf.run rfl hs hidle hunfilled

/-! ## Other calls -/

/-- Without an injector the steps of a recipe leave everything but counts and the journal alone. -/
theorem keeps_followRecipe (r : Recipe) : Keeps (s.Outlives P) (followRecipe given r) := by
  have hfault : ∀ owner fault, Keeps (s.Outlives P) (checkFault owner fault) := by
    intro owner fault
    cases fault with
    | none => exact fun t ht => ht
    | some fault =>
      refine .andThen (fun t ht => ht.of_same rfl rfl rfl rfl) fun before => ?_
      intro t ht
      cases fault.times with
      | none => exact ht
      | some times =>
        dsimp only
        split <;> exact ht
  refine .andThen (fun t ht => ht.of_same rfl rfl rfl rfl) fun _ => .andThen (hfault _ _) fun _ => ?_
  cases r.body with
  | counter name type =>
    refine .andThen (fun t ht => ht.of_same rfl rfl rfl rfl) fun n => ?_
    exact fun t ht => ht.of_same rfl rfl rfl rfl
  | literal l =>
    cases l with
    | scalar _ => exact fun t ht => ht.of_same rfl rfl rfl rfl
    | substitutor _ => exact fun t ht => ht.of_same rfl rfl rfl rfl
    | component type =>
      refine .andThen (fun t ht => ht.of_same rfl rfl rfl rfl) fun _ => ?_
      exact fun t ht => ht.of_same rfl rfl rfl rfl
  | gather needs tries returns =>
    intro t ht
    have hgone : gather given r.type needs tries returns t =
        (.error (.error (.constructionFailed "driver" "no injector")), t) := by
      simp [gather, ht.dropped]
    dsimp only
    rw [hgone]
    exact ht

/-- **Any other call.**  Without an injector no factory changes a binding, makes a supplier or fills a
cell for a factory that needs the injector. -/
theorem Factory.run_outlives (henter : given.enter = withGuard) (f : Factory)
    (hsealed : ∀ cell, P cell → ∀ inner, (cell, inner) ∈ f.cells → inner.dependent?.isSome) :
    Keeps (s.Outlives P) (f.run given) := by
  induction f with
  | guarded key inner ih =>
    intro t ht
    have hrun : (Factory.guarded key inner).run given t = withGuard key (inner.run given) t := by
      rw [Factory.run, henter]
    rw [hrun]
    -- the keys in progress are no part of what outlives the injector
    cases hchain : cycleChain t.inProgress key with
    | some chain =>
      rw [withGuard_circular hchain]
      exact ht
    | none =>
      rw [withGuard_entered hchain]
      have hentered : s.Outlives P { t with inProgress := t.inProgress ++ [key] } :=
        ht.of_same rfl rfl rfl rfl
      exact (ih hsealed _ hentered).of_same rfl rfl rfl rfl
  | once cell inner ih =>
    intro t ht
    have hrun : (Factory.once cell inner).run given = keepIn cell (inner.run given) := rfl
    have hinner := ih fun other hother g hg => hsealed other hother g (List.mem_cons_of_mem _ hg)
    rw [hrun]
    cases hempty : t.cell? cell with
    | some i =>
      rw [keepIn_full hempty]
      exact ht
    | none =>
      by_cases hbusy : cell ∈ t.filling
      · rw [keepIn_busy hempty hbusy]
        exact ht
      · have hmade := hinner { t with filling := t.filling ++ [cell] } (ht.of_same rfl rfl rfl rfl)
        cases hmake : inner.run given { t with filling := t.filling ++ [cell] } with
        | mk r u =>
          rw [hmake] at hmade
          cases r with
          | error stop =>
            rw [keepIn_failed hempty hbusy hmake]
            exact hmade.of_same rfl rfl rfl rfl
          | ok i =>
            rw [keepIn_filled hempty hbusy hmake]
            refine ⟨hmade.dropped, hmade.tables, hmade.suppliers, fun other hother => ?_⟩
            by_cases hsame : other = cell
            · -- a sealed cell is not filled: what it is for fails without an injector
              subst hsame
              obtain ⟨key, hkey⟩ := Option.isSome_iff_exists.mp
                (hsealed other hother inner List.mem_cons_self)
              rw [run_dependent (s := { t with filling := t.filling ++ [other] }) ht.dropped hkey]
                at hmake
              cases hmake
            · exact (u.cell?_fillCell_of_ne i hsame).trans (hmade.cells other hother)
  | memo store key inner ih =>
    have hrun : (Factory.memo store key inner).run given = keepBy store key (inner.run given) := rfl
    rw [hrun]
    intro t ht
    unfold keepBy
    rw [get_bind]
    cases t.stored? store key with
    | some i => exact ht
    | none =>
      refine Keeps.andThen (ih hsealed) (fun i u hu => ?_) t ht
      rw [get_bind]
      cases u.stored? store key with
      | some earlier => exact hu
      | none => exact hu.of_same rfl rfl rfl rfl
  | constant i => exact fun t ht => ht
  | recipe r rewrap =>
    refine .andThen (keeps_followRecipe r) fun i => ?_
    cases rewrap with
    | true => exact fun t ht => ht.of_same rfl rfl rfl rfl
    | false => exact fun t ht => ht
  | method key r =>
    intro t ht
    rw [run_dependent ht.dropped rfl]
    exact ht
  | construct key c =>
    intro t ht
    rw [run_dependent ht.dropped rfl]
    exact ht

/-- A call of a factory at hand leaves the cells alone that such factories need the injector to fill. -/
theorem State.Has.keeps_call {held : List Factory} (hf : s.Has held f) :
    Keeps (s.Outlives (s.Sealed held)) f.call := by
  intro t ht
  obtain ⟨depth, hrun⟩ := f.call_run t
  rw [hrun]
  exact f.run_outlives rfl (fun cell hcell => hcell f hf) t ht

end

/-! ## Suppliers -/

section

variable {s t : State} {held : List Factory} {P : Nat → Prop}

/-- A supplier may keep the factory that it is known to find. -/
theorem State.Outlives.fill (h : s.Outlives P t) {id : Nat} {lookup : Lookup} {f : Factory}
    (hid : t.Supplies id { lookup }) (hf : lookup.factory? = some f) :
    s.Outlives P (State.fillSupplier id f t).2 := by
  refine ⟨h.dropped, h.tables, Eq.trans ?_ h.suppliers, h.cells⟩
  show (t.suppliers.modify id _).map _ = _
  refine List.ext_getElem? fun i => ?_
  rw [List.getElem?_map, List.getElem?_map, List.getElem?_modify]
  by_cases hi : id = i
  · subst hi
    rw [hid]
    simp [SupplierCell.leadsTo, hf]
  · simp [hi]

/-- Without an injector a supplier finds at most the factory that it is known to find. -/
theorem factoryOf_outlives (hs : s.alive = false) (supplier : Supplier) :
    s.Outlives P (factoryOf supplier s).2 := by
  cases hcell : s.suppliers[supplier.id]? with
  | none =>
    rw [State.factoryOf_missing hcell]
    exact .refl hs
  | some cell =>
    obtain ⟨lookup, factory⟩ := cell
    cases factory with
    | some f =>
      rw [State.factoryOf_found hcell]
      exact .refl hs
    | none =>
      rw [State.factoryOf_empty hcell]
      cases lookup with
      | resolved key f => exact State.Outlives.fill (.refl hs) hcell rfl
      | dependency p =>
        rw [State.findFactory_dependency_eq, hs]
        exact .refl hs
      | numbered id key failures f =>
        have hnoted : ∀ journal lookups, s.Outlives P { s with journal, lookups } := fun _ _ =>
          (State.Outlives.refl hs).of_same rfl rfl rfl rfl
        rw [State.findFactory_numbered]
        by_cases hless : (State.counted id s.lookups).1 < failures
        · rw [if_pos hless]
          exact hnoted _ _
        · rw [if_neg hless]
          exact (hnoted _ _).fill hcell rfl

theorem State.Outlives.pull (hs : s.alive = false) (supplier : Supplier) :
    s.Outlives (s.Sealed held) (pullNow supplier s).2 := by
  have hfound := factoryOf_outlives (P := s.Sealed held) hs supplier
  have hknows := (s.factoryOf_discovers supplier).2
  show s.Outlives _ (Assemble.pull Factory.call supplier s).2
  rw [pull_eq]
  cases hrun : factoryOf supplier s with
  | mk r t =>
    rw [hrun] at hfound hknows
    simp only [run_bind _ _ s, hrun]
    cases r with
    | error stop => exact hfound
    | ok f =>
      have hf : s.Has held f := hfound.has (.inr (hknows f rfl))
      exact Keeps.andThen hf.keeps_call (fun i => keeps_ofExcept _) t hfound

end

/-! ## Requests -/

/-- Whether a request can be made without an injector. -/
def Request.isOutside : Request → Bool
  | call _ => true
  | pull _ => true
  | release => true
  | set .. => true
  | readJournal _ => true
  | _ => false

section

variable {s : State} {held : List Factory}

/-- **One request.**  It leaves sealed cells as they are, and hands out no factory. -/
theorem Request.run_outlives (hs : s.alive = false) {r : Request} (hr : r.Allowed held)
    (houtside : r.isOutside) :
    (r.run s).1.factories = [] ∧ s.Outlives (s.Sealed held) (r.run s).2 := by
  cases r with
  | call f =>
    have hf : s.Has held f := .inl hr
    exact ⟨rfl, hf.keeps_call s (.refl hs)⟩
  | pull supplier => exact ⟨rfl, .pull hs supplier⟩
  | release => exact ⟨rfl, (State.Outlives.refl hs).of_same hs.symm rfl rfl rfl⟩
  | set _ _ _ => exact ⟨rfl, (State.Outlives.refl hs).of_same rfl rfl rfl rfl⟩
  | readJournal _ => exact ⟨rfl, (State.Outlives.refl hs).of_same rfl rfl rfl rfl⟩
  | _ => cases houtside

/-- **Any number of requests.** -/
theorem State.after_outlives (hs : s.alive = false) {rs : List Request} (hrs : s.Allows held rs)
    (houtside : ∀ r ∈ rs, r.isOutside) : s.Outlives (s.Sealed held) (s.after rs) := by
  induction rs generalizing s with
  | nil => exact .refl hs
  | cons r rs ih =>
    obtain ⟨hr, hrest⟩ := hrs
    obtain ⟨hnone, hfirst⟩ := Request.run_outlives hs hr (houtside r List.mem_cons_self)
    rw [hnone] at hrest
    have hlater := ih hfirst.dropped hrest fun r hr => houtside r (List.mem_cons_of_mem _ hr)
    exact hfirst.trans hlater fun cell hcell => hfirst.seals hcell

/-- A cell of a factory that needs the injector is sealed. -/
theorem State.Coherent.sealed (hs : s.Coherent held) {f core : Factory} {key : Key} {cell : Nat}
    (hf : s.Has held f) (hcell : (cell, core) ∈ f.cells) (hcore : core.dependent? = some key) :
    s.Sealed held cell := by
  intro g hg inner hinner
  have hsame : inner = core := (hs f hf (cell, core) hcell).2 g hg (cell, inner) hinner rfl
  rw [hsame, hcore]
  rfl

/-- What is left of a factory stays. -/
theorem Factory.Made.leftIn_eq {f : Factory} {key : Key} {t : State} (hf : f.Made key)
    (hs : s.Coherent held) (hhas : s.Has held f) (ht : s.Outlives (s.Sealed held) t) :
    f.leftIn key t = f.leftIn key s := by
  have hheld : f.heldIn t = f.heldIn s := by
    cases hf with
    | unscoped hcore => rw [Factory.heldIn_core hcore, Factory.heldIn_core hcore]
    | @singleton core hcore cell =>
      simpa using ht.cells cell (hs.sealed hhas List.mem_cons_self hcore)
  rw [Factory.leftIn, Factory.leftIn, hheld]

/-- **One pull.**  Without an injector a supplier that leads to a factory that needs it gives what is
left of that factory, seen as its type. -/
theorem Factory.Made.pull {f : Factory} {key : Key} {supplier : Supplier} {c : SupplierCell}
    (hf : f.Made key) (hs : s.alive = false) (hidle : s.inProgress = []) (hunfilled : s.filling = [])
    (hc : s.Supplies supplier.id c)
    (hleads : c.factory = some f ∨ c.factory = none ∧ ∃ k, c.lookup = .resolved k f) :
    ∃ u, (u = s ∨ u = (State.fillSupplier supplier.id f s).2) ∧
      pullNow supplier s = (do
        let i ← f.leftIn key s
        ofExcept (i.downcast supplier.type supplier.key.text) : Assemble Instance) u := by
  have hcall : ∀ u : State, u.alive = false → u.inProgress = [] → u.filling = [] → u.cells = s.cells →
      f.call u = f.leftIn key s u := by
    intro u hu hidle hunfilled hcells
    have hheld : f.heldIn u = f.heldIn s := by
      unfold Factory.heldIn State.cell?
      rw [hcells]
    rw [hf.call hu hidle hunfilled, Factory.leftIn, Factory.leftIn, hheld]
  obtain ⟨lookup, factory⟩ := c
  have hgives : ∀ u : State, f.call u = f.leftIn key s u → giveBy Factory.call supplier f u = (do
      let i ← f.leftIn key s
      ofExcept (i.downcast supplier.type supplier.key.text) : Assemble Instance) u :=
    fun u hu => bind_same hu _
  rcases hleads with rfl | ⟨rfl, k, rfl⟩
  · have hpull : pullNow supplier s = giveBy Factory.call supplier f s := State.pull_found hc
    exact ⟨s, .inl rfl, hpull.trans (hgives s (hcall s hs hidle hunfilled rfl))⟩
  · have hpull : pullNow supplier s =
        giveBy Factory.call supplier f (State.fillSupplier supplier.id f s).2 :=
      State.pull_empty Factory.call hc
    exact ⟨_, .inr rfl, hpull.trans (hgives _ (hcall _ hs hidle hunfilled rfl))⟩

/-- What implicit bindings are bound to in the scopes of the library. -/
theorem Reachable.implicit_made (h : Reachable s held) {key : Key} {b : Binding}
    (hb : s.tables.binding? key = some b) (horigin : b.origin = .implicit)
    (hscope : b.factory.usesStore = false) : b.factory.Made key := by
  obtain ⟨hmem, rfl⟩ := State.mem_of_binding? hb
  obtain ⟨maker, kept, hfactory, hkept⟩ := h.settled.implicit b hmem horigin
  rw [hfactory] at hscope ⊢
  exact hkept.made rfl hscope

/-- **Without the injector nothing new is made.**  Let the injector be released, and take any calls and
pulls after that.  The factories that implicit bindings and module methods are bound to in the scopes of
the library then give the instance that their cell kept when the injector was released, or fail for want
of the injector.  So do suppliers that lead to one, if the instance is of their type; a supplier that has
not looked up its dependency fails.  Nothing else changes, no matter who would answer questions. -/
theorem Reachable.released_gives_kept (h : Reachable s held) {rs : List Request}
    (hrs : s.Allows held (.release :: rs)) (houtside : ∀ r ∈ rs, r.isOutside) :
    let t := s.after (.release :: rs)
    (∀ f key, s.Has held f → f.Made key → f.call t = f.leftIn key s t ∧
      ∀ given : Provider, given.enter = withGuard → f.run given t = f.leftIn key s t) ∧
    (∀ supplier c f key, s.Supplies supplier.id c → f.Made key →
      (c.factory = some f ∨ c.factory = none ∧ ∃ k, c.lookup = .resolved k f) →
        ∃ u, (u = t ∨ u = (State.fillSupplier supplier.id f t).2) ∧
          pullNow supplier t = (do
            let i ← f.leftIn key s
            ofExcept (i.downcast supplier.type supplier.key.text) : Assemble Instance) u) ∧
    (∀ supplier p, s.Supplies supplier.id { lookup := .dependency p } →
      pullNow supplier t = (.error (.error (.injectorDropped p.key)), t)) ∧
    (∀ key b, s.tables.binding? key = some b → b.origin = .implicit → b.factory.usesStore = false →
      b.factory.Made key) ∧
    ∀ m v, installModule m s = (.ok (), v) → ∀ method ∈ m.methods, ∀ key ∈ method.keys,
      ∃ b, v.tables.binding? key = some b ∧ (b.factory.usesStore = false → b.factory.Made method.key) := by
  intro t
  let u : State := { s with alive := false }
  have hcoherent : u.Coherent held := h.coherent
  have hlater : u.Outlives (u.Sealed held) t := State.after_outlives rfl hrs.2 houtside
  obtain ⟨held', hreachable⟩ := h.after hrs
  have hidle := hreachable.settled.idle
  have hunfilled := hreachable.settled.unfilled
  have hleft : ∀ f key, s.Has held f → f.Made key → f.leftIn key t = f.leftIn key s :=
    fun f key hhas hf => hf.leftIn_eq (s := u) hcoherent hhas hlater
  refine ⟨fun f key hhas hf => ⟨?_, fun given henter => ?_⟩,
    fun supplier c f key hc hf hleads => ?_, fun supplier p hc => ?_, fun key b hb horigin hscope => ?_,
    fun m v hinstalled method hmethod key hkey => ?_⟩
  · rw [hf.call hlater.dropped hidle hunfilled, hleft f key hhas hf]
  · rw [hf.run henter hlater.dropped hidle hunfilled, hleft f key hhas hf]
  · have hmem : c ∈ s.suppliers := List.mem_of_getElem? hc
    have hhas : s.Has held f := by
      refine .inr (.inr ⟨c, hmem, ?_⟩)
      rcases hleads with hfound | ⟨-, k, hlookup⟩
      · exact .inr hfound
      · exact .inl (by rw [hlookup]; rfl)
    rw [← hleft f key hhas hf]
    obtain ⟨lookup, factory⟩ := c
    rcases hleads with rfl | ⟨rfl, k, rfl⟩
    · exact hf.pull hlater.dropped hidle hunfilled hc.after_found (.inl rfl)
    · obtain ⟨⟨lookup, factory⟩, hc', hsame⟩ := hlater.supplies hc
      obtain ⟨rfl, hfactory⟩ := Prod.mk.inj hsame
      refine hf.pull hlater.dropped hidle hunfilled hc' ?_
      cases factory with
      | none => exact .inr ⟨rfl, k, rfl⟩
      | some g => exact .inl hfactory
  · have hc' : t.Supplies supplier.id { lookup := .dependency p } := by
      obtain ⟨⟨lookup, factory⟩, hc', hsame⟩ := hlater.supplies hc
      obtain ⟨rfl, hfactory⟩ := Prod.mk.inj hsame
      obtain ⟨rfl, -⟩ := Option.or_eq_none_iff.mp hfactory
      exact hc'
    have hpull := State.pull_dependency Factory.call hc'
    rw [hlater.dropped] at hpull
    exact hpull
  · exact h.implicit_made hb horigin hscope
  · obtain ⟨_, -, ⟨-, -, _, hrun, hinstalls⟩ | ⟨cause, -, hrun⟩⟩ := s.installModule_spec m
    · cases hinstalled.symm.trans hrun
      obtain ⟨kept, hwraps, hbound⟩ := hinstalls.bound method hmethod
      exact ⟨_, hbound key hkey, hwraps.kept.made rfl⟩
    · cases hinstalled.symm.trans hrun

end

/-! ## A singleton that was built before -/

def State.built : State :=
  State.after (.initial [(⟨"Alpha"⟩, { Construction.plain ⟨"Alpha"⟩ with
      scope := some TypePath.singletonMarker })] {} [])
    [.registerConstruction ⟨"Alpha"⟩ ⟨"Alpha"⟩, .getInstance (.of ⟨"Alpha"⟩)]

/-- Two suppliers lead to the singleton, one of them of another type. -/
def State.keeping : State :=
  State.built.after
    [.getSupplier (.of ⟨"Alpha"⟩) ⟨"Alpha"⟩, .getSupplier (.of ⟨"Alpha"⟩) ⟨"Beta"⟩]

theorem State.built_reachable : ∃ held, Reachable State.built held :=
  (Reachable.initial _ _ _).after
    (show State.Allows _ [] [.registerConstruction ⟨"Alpha"⟩ ⟨"Alpha"⟩, .getInstance (.of ⟨"Alpha"⟩)]
      from ⟨trivial, trivial, trivial⟩)

theorem State.keeping_reachable : ∃ held, Reachable State.keeping held := by
  obtain ⟨held, h⟩ := State.built_reachable
  exact h.after (show State.built.Allows held
    [.getSupplier (.of ⟨"Alpha"⟩) ⟨"Alpha"⟩, .getSupplier (.of ⟨"Alpha"⟩) ⟨"Beta"⟩]
    from ⟨trivial, trivial, trivial⟩)

/-- Suppliers of a bound key lead to its factory. -/
theorem State.after_getSuppliers {key : Key} {b : Binding} {s : State}
    (hb : s.tables.binding? key = some b) (type other : TypePath) :
    (s.after [.getSupplier key type, .getSupplier key other]).suppliers =
      s.suppliers ++ List.replicate 2 { lookup := .resolved key b.factory } := by
  have hrun : ∀ (s : State) (type : TypePath), s.tables.binding? key = some b →
      ((Request.getSupplier key type).run s).2 =
        { s with suppliers := s.suppliers ++ [{ lookup := .resolved key b.factory }] } := by
    intro s type hb
    show (getSupplier key type s).2 = _
    simp only [getSupplier, run_bind, State.getFactory_bound hb]
    rfl
  show ((Request.getSupplier key other).run ((Request.getSupplier key type).run s).2).2.suppliers = _
  rw [hrun s type hb, hrun _ other]
  · simp [List.replicate]
  · exact hb

theorem State.keeping_supplies : ∃ f i, f.Made (.of ⟨"Alpha"⟩) ∧ f.heldIn State.keeping = some i ∧
    ∀ id ∈ ([0, 1] : List Nat),
      State.keeping.Supplies id { lookup := .resolved (.of ⟨"Alpha"⟩) f } := by
  obtain ⟨held, h⟩ := State.built_reachable
  have hshape : (State.built.tables.binding? (.of ⟨"Alpha"⟩)).map (fun b =>
      (b.origin, b.factory.usesStore, (b.factory.heldIn State.keeping).isSome)) =
        some (.implicit, false, true) := by decide +kernel
  have hnone : State.built.suppliers.length = 0 := by decide +kernel
  obtain ⟨b, hb, hfacts⟩ := Option.map_eq_some_iff.mp hshape
  obtain ⟨horigin, hrest⟩ := Prod.mk.inj hfacts
  obtain ⟨hscope, hheld⟩ := Prod.mk.inj hrest
  obtain ⟨i, hi⟩ := Option.isSome_iff_exists.mp hheld
  have hsuppliers := State.after_getSuppliers hb ⟨"Alpha"⟩ ⟨"Beta"⟩
  rw [List.length_eq_zero_iff.mp hnone, List.nil_append] at hsuppliers
  refine ⟨b.factory, i, h.implicit_made hb horigin hscope, hi, fun id hid => ?_⟩
  refine (congrArg (·[id]?) hsuppliers).trans (List.getElem?_replicate_of_lt ?_)
  simp at hid
  omega

/-- After the release a call gives the singleton, also when a supplier was pulled in between. -/
theorem released_gives_kept_alpha :
    let rs : List Request :=
      [.release, .pull { id := 0, key := .of ⟨"Alpha"⟩, type := ⟨"Alpha"⟩ }]
    ∃ held f i, Reachable State.keeping held ∧ State.keeping.Allows held rs ∧
      State.keeping.Has held f ∧ f.Made (.of ⟨"Alpha"⟩) ∧ f.heldIn State.keeping = some i ∧
        f.call (State.keeping.after rs) = (.ok i, State.keeping.after rs) := by
  intro rs
  obtain ⟨held, hreachable⟩ := State.keeping_reachable
  obtain ⟨f, i, hmade, hheld, hsupplies⟩ := State.keeping_supplies
  have hrs : State.keeping.Allows held rs := ⟨trivial, trivial, trivial⟩
  have hhas : State.keeping.Has held f :=
    .inr (.inr ⟨_, List.mem_of_getElem? (hsupplies 0 (by decide)), .inl rfl⟩)
  obtain ⟨hcalls, -⟩ := hreachable.released_gives_kept hrs fun r hr => by
    rw [List.mem_singleton.mp hr]
    rfl
  have hcall := (hcalls f _ hhas hmade).1
  rw [Factory.leftIn, hheld] at hcall
  exact ⟨held, f, i, hreachable, hrs, hhas, hmade, hheld, hcall⟩

/-- A supplier of another type gives neither the singleton nor the error for want of the injector: its
type is checked, as ever. -/
theorem not_released_gives_kept :
    ∃ held f i, Reachable State.keeping held ∧
      State.keeping.Supplies 1 { lookup := .resolved (.of ⟨"Alpha"⟩) f } ∧
      f.Made (.of ⟨"Alpha"⟩) ∧ f.heldIn State.keeping = some i ∧
      ∀ r, r = (pullNow { id := 1, key := .of ⟨"Alpha"⟩, type := ⟨"Beta"⟩ }
          (State.keeping.after [.release])).1 →
        r ≠ .ok i ∧ r ≠ .error (.error (.injectorDropped (.of ⟨"Alpha"⟩))) := by
  have hstop : Stoppable.stop? (pullNow { id := 1, key := .of ⟨"Alpha"⟩, type := ⟨"Beta"⟩ }
      (State.keeping.after [.release])).1 = some (.error (.typeMismatch "Alpha" "Beta")) := by
    decide +kernel
  obtain ⟨held, hreachable⟩ := State.keeping_reachable
  obtain ⟨f, i, hmade, hheld, hsupplies⟩ := State.keeping_supplies
  refine ⟨held, f, i, hreachable, hsupplies 1 (by decide), hmade, hheld, fun r hr => ?_⟩
  rw [← hr] at hstop
  constructor
  · rintro rfl
    cases hstop
  · rintro rfl
    cases hstop

end ComponentAssembly

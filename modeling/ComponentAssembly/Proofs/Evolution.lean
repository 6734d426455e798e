import ComponentAssembly.Injector.Resolution
import ComponentAssembly.Proofs.Acyclic
import ComponentAssembly.Proofs.Layers
import Mathlib.Data.List.Basic

/-!
# How a state evolves while factories run

Running a factory only adds to a state (`State.Evolves`): bindings stay as they are and new ones are
implicit, cells keep their owners, and the keys in progress are again those from before.  Meanwhile
the state stays sound (`State.Sound U`): every bound factory is guarded, a cell is filled only under
the guard of its owner, and all keys that can be asked for are among `U`.

    s.Leads U t   t evolves from s and is sound

There is one lemma for each way in which a step changes the state.
-/

namespace ComponentAssembly

/-- The factory that a lookup or a supplier knows from the start. -/
def Lookup.factory? : Lookup → Option Factory
  | .resolved _ factory => some factory
  | .dependency _ => none
  | .numbered _ _ _ factory => some factory

namespace State

/-! ## Evolution -/

/-- What stays of a state while factories run, and what may be new. -/
structure Evolves (s t : State) : Prop where
  declarations : t.declarations = s.declarations
  constructions : t.tables.constructions = s.tables.constructions
  kept : ∀ key b, s.tables.binding? key = some b → t.tables.binding? key = some b
  added : ∀ key b, t.tables.binding? key = some b →
    s.tables.binding? key = some b ∨ s.tables.binding? key = none ∧ b.origin = .implicit
  owners : ∀ cell key, s.owner? cell = some key → t.owner? cell = some key
  inProgress : t.inProgress = s.inProgress
  filling : t.filling = s.filling

theorem Evolves.refl (s : State) : s.Evolves s where
  declarations := rfl
  constructions := rfl
  kept _ _ h := h
  added _ _ h := .inl h
  owners _ _ h := h
  inProgress := rfl
  filling := rfl

theorem Evolves.trans {s t u : State} (h : s.Evolves t) (h' : t.Evolves u) : s.Evolves u where
  declarations := h'.declarations.trans h.declarations
  constructions := h'.constructions.trans h.constructions
  kept key b hb := h'.kept key b (h.kept key b hb)
  added key b hb := by
    rcases h'.added key b hb with hb | ⟨hnone, himplicit⟩
    · exact h.added key b hb
    · refine .inr ⟨?_, himplicit⟩
      cases hs : s.tables.binding? key with
      | none => rfl
      | some old =>
        rw [h.kept key old hs] at hnone
        cases hnone
  owners cell key ho := h'.owners cell key (h.owners cell key ho)
  inProgress := h'.inProgress.trans h.inProgress
  filling := h'.filling.trans h.filling

theorem Evolves.declared {s t : State} (h : s.Evolves t) (type : TypePath) :
    t.declared type = s.declared type := by
  unfold State.declared
  rw [h.declarations]

/-- A key is bound on request exactly if it was before. -/
theorem Evolves.isExplicit {s t : State} (h : s.Evolves t) (key : Key) :
    t.tables.isExplicit key = s.tables.isExplicit key := by
  unfold Tables.isExplicit
  cases ht : t.tables.binding? key with
  | none =>
    cases hs : s.tables.binding? key with
    | none => rfl
    | some b =>
      rw [h.kept key b hs] at ht
      cases ht
  | some b =>
    rcases h.added key b ht with hs | ⟨hs, himplicit⟩
    · rw [hs]
    · rw [hs]
      simp [himplicit, Origin.isExplicit]

/-! ## Soundness -/

/-- Bound factories are guarded, implicit ones are constructions, and cells are filled under the
guard of their owners only. -/
structure Wired (s : State) : Prop where
  guarded : ∀ b ∈ s.tables.bindings, b.factory.isGuarded
  tidy : ∀ b ∈ s.tables.bindings, b.factory.Tidy s.owner? none
  implicit : ∀ b ∈ s.tables.bindings, b.origin = .implicit →
    ∃ maker, b.factory.Builds b.key (s.declared maker)
  lookups : ∀ c ∈ s.suppliers, ∀ f ∈ c.lookup.factory?, f.Tidy s.owner? none
  found : ∀ c ∈ s.suppliers, ∀ f ∈ c.factory, f.Tidy s.owner? none

/-- In the midst of calls: the keys in progress are distinct, cells are filled while their owners are
in progress, and all keys that can be asked for are among some. -/
structure Sound (U : List Key) (s : State) : Prop extends s.Wired where
  distinct : s.inProgress.Nodup
  filling : ∀ cell ∈ s.filling, ∃ key ∈ s.inProgress, s.owner? cell = some key
  known : s.knownKeys ⊆ U
  running : s.inProgress ⊆ U

/-- A state evolves from another and is sound. -/
structure Leads (U : List Key) (s t : State) : Prop where
  evolves : s.Evolves t
  sound : t.Sound U

theorem Leads.trans {U : List Key} {s t u : State} (h : s.Leads U t) (h' : t.Leads U u) :
    s.Leads U u :=
  ⟨h.evolves.trans h'.evolves, h'.sound⟩

/-! ## Changes -/

variable {U : List Key} {s t : State}

theorem knownKeys_subset_iff : s.knownKeys ⊆ U ↔ Substitutor.key ∈ U ∧ s.declaredKeys ⊆ U ∧
    (∀ b ∈ s.tables.bindings, b.key ∈ U ∧ b.factory.keys ⊆ U) ∧
    ∀ c ∈ s.suppliers, c.lookup.keys ⊆ U ∧ ∀ f ∈ c.factory, f.keys ⊆ U := by
  have hsupplier : ∀ c : SupplierCell,
      supplierKeys c ⊆ U ↔ c.lookup.keys ⊆ U ∧ ∀ f ∈ c.factory, f.keys ⊆ U := by
    intro c
    unfold supplierKeys
    cases c.factory <;> simp
  have hflat : ∀ {α : Type} (as : List α) (f : α → List Key),
      as.flatMap f ⊆ U ↔ ∀ a ∈ as, f a ⊆ U := by
    intro α as f
    simp only [List.subset_def, List.mem_flatMap, forall_exists_index, and_imp]
    exact ⟨fun h a ha k hk => h a ha hk, fun h k a ha hk => h a ha hk⟩
  simp only [knownKeys, List.append_subset, List.cons_subset, hflat, hsupplier, and_assoc]

/-- All keys that a factory can ask for are known, and its cells are in order. -/
structure Admits (U : List Key) (s : State) (f : Factory) : Prop where
  keys : f.keys ⊆ U
  tidy : f.Tidy s.owner? none

theorem Sound.mono (h : s.Sound U) {V : List Key} (hV : U ⊆ V) : s.Sound V :=
  ⟨h.toWired, h.distinct, h.filling, fun _ hk => hV (h.known hk), fun _ hk => hV (h.running hk)⟩

theorem Leads.mono (h : s.Leads U t) {V : List Key} (hV : U ⊆ V) : s.Leads V t :=
  ⟨h.evolves, h.sound.mono hV⟩

theorem Sound.admits (h : s.Sound U) {b : Binding} (hb : b ∈ s.tables.bindings) :
    s.Admits U b.factory :=
  ⟨((knownKeys_subset_iff.mp h.known).2.2.1 b hb).2, h.tidy b hb⟩

theorem Admits.mono {f : Factory} (h : s.Admits U f) (ht : s.Evolves t) : t.Admits U f :=
  ⟨h.keys, h.tidy.mono ht.owners⟩

/-- A change of what the wiring does not look at. -/
theorem Wired.of_same (h : s.Wired) (hdeclarations : t.declarations = s.declarations)
    (hbindings : t.tables.bindings = s.tables.bindings) (howner : t.owner? = s.owner?)
    (hsuppliers : t.suppliers = s.suppliers) : t.Wired where
  guarded := hbindings ▸ h.guarded
  tidy := by rw [hbindings, howner]; exact h.tidy
  implicit := by
    have hdeclared : t.declared = s.declared := by
      funext type
      unfold declared
      rw [hdeclarations]
    rw [hbindings, hdeclared]
    exact h.implicit
  lookups := by rw [hsuppliers, howner]; exact h.lookups
  found := by rw [hsuppliers, howner]; exact h.found

/-- A change of what soundness does not look at. -/
theorem Sound.of_same (h : s.Sound U) (hdeclarations : t.declarations = s.declarations)
    (hbindings : t.tables.bindings = s.tables.bindings) (howner : t.owner? = s.owner?)
    (hsuppliers : t.suppliers = s.suppliers) (hinProgress : t.inProgress = s.inProgress)
    (hfilling : t.filling = s.filling) : t.Sound U where
  toWired := h.toWired.of_same hdeclarations hbindings howner hsuppliers
  distinct := hinProgress ▸ h.distinct
  filling := by rw [hfilling, hinProgress, howner]; exact h.filling
  known := by
    have hdeclaredKeys : t.declaredKeys = s.declaredKeys := by
      unfold declaredKeys
      rw [hdeclarations]
    have hknown : t.knownKeys = s.knownKeys := by
      unfold knownKeys
      rw [hdeclaredKeys, hbindings, hsuppliers]
    exact hknown ▸ h.known
  running := hinProgress ▸ h.running

theorem Leads.refl (h : s.Sound U) : s.Leads U s :=
  ⟨.refl s, h⟩

/-- The journal and the counts say nothing about keys. -/
theorem Sound.noted (h : s.Sound U) (journal : Journal) (counters : List (String × Nat))
    (trials : List ((String × String) × Nat)) (lookups : List (Nat × Nat)) :
    s.Leads U { s with journal, counters, trials, lookups } :=
  ⟨⟨rfl, rfl, fun _ _ h => h, fun _ _ h => .inl h, fun _ _ h => h, rfl, rfl⟩,
    h.of_same rfl rfl rfl rfl rfl rfl⟩

theorem Sound.stored (h : s.Sound U) (stores : List (List (Key × Instance))) :
    s.Leads U { s with stores } :=
  ⟨⟨rfl, rfl, fun _ _ h => h, fun _ _ h => .inl h, fun _ _ h => h, rfl, rfl⟩,
    h.of_same rfl rfl rfl rfl rfl rfl⟩

@[simp]
theorem owner?_fillCell (cell : Nat) (value : Instance) :
    (fillCell cell value s).2.owner? = s.owner? := by
  funext other
  simp only [owner?, fillCell, modify, modifyGet, MonadStateOf.modifyGet, StateT.modifyGet, pure]
  rw [List.getElem?_modify]
  cases s.cells[other]? with
  | none => rfl
  | some c => split <;> rfl

theorem Sound.fillCell (h : s.Sound U) (cell : Nat) (value : Instance) :
    s.Leads U (fillCell cell value s).2 :=
  ⟨⟨rfl, rfl, fun _ _ h => h, fun _ _ h => .inl h,
      fun other key ho => by simpa using ho, rfl, rfl⟩,
    h.of_same rfl rfl (owner?_fillCell cell value) rfl rfl rfl⟩

/-- Cells may be added, and change as long as they keep their owners. -/
theorem Wired.of_owners (h : s.Wired) (cells : List Cell)
    (howner : ∀ cell key, s.owner? cell = some key → State.owner? { s with cells } cell = some key) :
    State.Wired { s with cells } where
  guarded := h.guarded
  tidy b hb := (h.tidy b hb).mono howner
  implicit := h.implicit
  lookups c hc f hf := (h.lookups c hc f hf).mono howner
  found c hc f hf := (h.found c hc f hf).mono howner

theorem Sound.of_owners (h : s.Sound U) (cells : List Cell)
    (howner : ∀ cell key, s.owner? cell = some key → State.owner? { s with cells } cell = some key) :
    s.Leads U { s with cells } where
  evolves := ⟨rfl, rfl, fun _ _ h => h, fun _ _ h => .inl h, howner, rfl, rfl⟩
  sound :=
    { toWired := h.toWired.of_owners cells howner
      distinct := h.distinct
      filling := by
        intro cell hcell
        obtain ⟨key, hkey, ho⟩ := h.filling cell hcell
        exact ⟨key, hkey, howner cell key ho⟩
      known := h.known
      running := h.running }

/-- A new cell takes none away. -/
theorem owner?_mono_newCell (s : State) (key : Key) {cell : Nat} {owner : Key}
    (ho : s.owner? cell = some owner) : (newCell key s).2.owner? cell = some owner := by
  obtain ⟨c, hcell, rfl⟩ := Option.map_eq_some_iff.mp ho
  have hlt : cell < s.cells.length := (List.getElem?_eq_some_iff.mp hcell).1
  show ((s.cells ++ [_])[cell]?).map _ = _
  rw [List.getElem?_append_left hlt, hcell]
  rfl

theorem Sound.newCell (h : s.Sound U) (key : Key) : s.Leads U (newCell key s).2 :=
  h.of_owners _ fun _ _ ho => s.owner?_mono_newCell key ho

@[simp]
theorem owner?_newCell (key : Key) :
    (newCell key s).2.owner? (newCell key s).1 = some key := by
  simp [newCell, modifyGet, MonadStateOf.modifyGet, StateT.modifyGet, pure, owner?]

/-- Suppliers may be added, and change as long as what they know is tidy. -/
theorem Wired.of_suppliers (h : s.Wired) (suppliers : List SupplierCell)
    (hsuppliers : ∀ c ∈ suppliers, c ∈ s.suppliers ∨
      (∀ f ∈ c.lookup.factory?, f.Tidy s.owner? none) ∧ ∀ f ∈ c.factory, f.Tidy s.owner? none) :
    State.Wired { s with suppliers } where
  guarded := h.guarded
  tidy := h.tidy
  implicit := h.implicit
  lookups := by
    intro c hc
    rcases hsuppliers c hc with hc | ⟨hlookup, -⟩
    · exact h.lookups c hc
    · exact hlookup
  found := by
    intro c hc
    rcases hsuppliers c hc with hc | ⟨-, hfound⟩
    · exact h.found c hc
    · exact hfound

theorem Sound.of_suppliers (h : s.Sound U) (suppliers : List SupplierCell)
    (hsuppliers : ∀ c ∈ suppliers, c ∈ s.suppliers ∨
      (c.lookup.keys ⊆ U ∧ ∀ f ∈ c.lookup.factory?, f.Tidy s.owner? none) ∧
        ∀ f ∈ c.factory, s.Admits U f) :
    s.Leads U { s with suppliers } where
  evolves := ⟨rfl, rfl, fun _ _ h => h, fun _ _ h => .inl h, fun _ _ h => h, rfl, rfl⟩
  sound :=
    { toWired := h.toWired.of_suppliers suppliers fun c hc => (hsuppliers c hc).imp_right
        fun hc => ⟨hc.1.2, fun f hf => (hc.2 f hf).tidy⟩
      distinct := h.distinct
      filling := h.filling
      known := by
        obtain ⟨hsubstitutor, hdeclared, hbindings, hold⟩ := knownKeys_subset_iff.mp h.known
        refine knownKeys_subset_iff.mpr ⟨hsubstitutor, hdeclared, hbindings, fun c hc => ?_⟩
        rcases hsuppliers c hc with hc | ⟨hlookup, hfound⟩
        · exact hold c hc
        · exact ⟨hlookup.1, fun f hf => (hfound f hf).keys⟩
      running := h.running }

theorem Sound.newSupplier (h : s.Sound U) (lookup : Lookup) (hkeys : lookup.keys ⊆ U)
    (hlookup : ∀ f ∈ lookup.factory?, f.Tidy s.owner? none) :
    s.Leads U { s with suppliers := s.suppliers ++ [{ lookup }] } := by
  refine h.of_suppliers _ fun c hc => ?_
  rcases List.mem_append.mp hc with hc | hc
  · exact .inl hc
  · obtain rfl := List.mem_singleton.mp hc
    exact .inr ⟨⟨hkeys, hlookup⟩, fun f hf => by cases hf⟩

theorem Sound.fillSupplier (h : s.Sound U) (id : Nat) {f : Factory} (hf : s.Admits U f) :
    s.Leads U (fillSupplier id f s).2 := by
  refine h.of_suppliers _ fun c hc => ?_
  obtain ⟨i, hi⟩ := List.mem_iff_getElem?.mp hc
  rw [List.getElem?_modify] at hi
  cases hold : s.suppliers[i]? with
  | none =>
    rw [hold] at hi
    cases hi
  | some old =>
    rw [hold] at hi
    have hmem : old ∈ s.suppliers := List.mem_of_getElem? hold
    simp only [Option.map_eq_map, Option.map_some, Option.some.injEq] at hi
    split at hi
    · subst hi
      have hknown := (knownKeys_subset_iff.mp h.known).2.2.2 old hmem
      refine .inr ⟨⟨hknown.1, h.lookups old hmem⟩, fun g hg => ?_⟩
      cases hg
      exact hf
    · subst hi
      exact .inl hmem

/-! ## Keys and cells in use -/

/-- A key comes into progress that is not in progress yet. -/
theorem Sound.enter (h : s.Sound U) {key : Key} (hfresh : key ∉ s.inProgress) (hkey : key ∈ U) :
    State.Sound U { s with inProgress := s.inProgress ++ [key] } :=
  { toWired := h.toWired.of_same rfl rfl rfl rfl
    distinct := by
      rw [List.nodup_append]
      refine ⟨h.distinct, by simp, ?_⟩
      rintro a ha b hb rfl
      exact hfresh (List.mem_singleton.mp hb ▸ ha)
    filling := by
      intro cell hcell
      obtain ⟨owner, hmem, ho⟩ := h.filling cell hcell
      exact ⟨owner, List.mem_append_left _ hmem, ho⟩
    known := h.known
    running := by
      intro k hk
      rcases List.mem_append.mp hk with hk | hk
      · exact h.running hk
      · exact List.mem_singleton.mp hk ▸ hkey }

/-- The keys in progress are put back to those before. -/
theorem Sound.leave (h : s.Sound U) {key : Key}
    (ht : State.Leads U { s with inProgress := s.inProgress ++ [key] } t) :
    s.Leads U { t with inProgress := t.inProgress.take s.inProgress.length } := by
  have hback : t.inProgress.take s.inProgress.length = s.inProgress := by
    rw [ht.evolves.inProgress]
    simp
  rw [hback]
  obtain ⟨⟨hdeclarations, hconstructions, hkept, hadded, howners, -, hfilling⟩, hsound⟩ := ht
  refine ⟨⟨hdeclarations, hconstructions, hkept, hadded, howners, rfl, hfilling⟩, ?_⟩
  exact
    { toWired := hsound.toWired.of_same rfl rfl rfl rfl
      distinct := h.distinct
      filling := by
        intro cell hcell
        obtain ⟨owner, hmem, ho⟩ := h.filling cell (hfilling ▸ hcell)
        exact ⟨owner, hmem, howners cell owner ho⟩
      known := hsound.known
      running := h.running }

/-- A cell is filled whose owner is in progress. -/
theorem Sound.beginFilling (h : s.Sound U) {cell : Nat} {key : Key} (hkey : key ∈ s.inProgress)
    (howner : s.owner? cell = some key) :
    State.Sound U { s with filling := s.filling ++ [cell] } :=
  { toWired := h.toWired.of_same rfl rfl rfl rfl
    distinct := h.distinct
    filling := by
      intro other hother
      rcases List.mem_append.mp hother with hother | hother
      · exact h.filling other hother
      · exact ⟨key, hkey, List.mem_singleton.mp hother ▸ howner⟩
    known := h.known
    running := h.running }

/-- The cells being filled are put back to those before. -/
theorem Sound.endFilling (h : s.Sound U) {cell : Nat} (hfresh : cell ∉ s.filling)
    (ht : State.Leads U { s with filling := s.filling ++ [cell] } t) :
    s.Leads U { t with filling := t.filling.erase cell } := by
  have hback : t.filling.erase cell = s.filling := by
    rw [ht.evolves.filling]
    show (s.filling ++ [cell]).erase cell = s.filling
    rw [List.erase_append_right _ hfresh]
    simp
  rw [hback]
  obtain ⟨⟨hdeclarations, hconstructions, hkept, hadded, howners, hinProgress, -⟩, hsound⟩ := ht
  refine ⟨⟨hdeclarations, hconstructions, hkept, hadded, howners, hinProgress, rfl⟩, ?_⟩
  exact
    { toWired := hsound.toWired.of_same rfl rfl rfl rfl
      distinct := hsound.distinct
      filling := by
        intro other hother
        obtain ⟨owner, hmem, ho⟩ := h.filling other hother
        refine ⟨owner, ?_, howners other owner ho⟩
        rw [hinProgress]
        exact hmem
      known := hsound.known
      running := hsound.running }

/-! ## New bindings -/

theorem mem_of_binding? {tables : Tables} {key : Key} {b : Binding}
    (h : tables.binding? key = some b) : b ∈ tables.bindings ∧ b.key = key :=
  ⟨List.mem_of_find?_eq_some h, by simpa using List.find?_some h⟩

theorem mem_put {tables : Tables} {b b' : Binding} (h : b' ∈ (tables.put b).bindings) :
    b' = b ∨ b' ∈ tables.bindings := by
  unfold Tables.put at h
  split at h
  · obtain ⟨old, hold, heq⟩ := List.mem_map.mp h
    split at heq
    · exact .inl heq.symm
    · exact .inr (heq ▸ hold)
  · rcases List.mem_append.mp h with h | h
    · exact .inr h
    · exact .inl (List.mem_singleton.mp h)

/-- A binding may be put in place. -/
theorem Wired.put (h : s.Wired) {b : Binding} (hguarded : b.factory.isGuarded)
    (htidy : b.factory.Tidy s.owner? none)
    (himplicit : b.origin = .implicit → ∃ maker, b.factory.Builds b.key (s.declared maker)) :
    State.Wired { s with tables := s.tables.put b } where
  guarded b' hb' := by
    rcases mem_put hb' with rfl | hb'
    · exact hguarded
    · exact h.guarded b' hb'
  tidy b' hb' := by
    rcases mem_put hb' with rfl | hb'
    · exact htidy
    · exact h.tidy b' hb'
  implicit b' hb' := by
    rcases mem_put hb' with rfl | hb'
    · exact himplicit
    · exact h.implicit b' hb'
  lookups := h.lookups
  found := h.found

theorem put_eq (tables : Tables) (b : Binding) :
    tables.put b = { tables with bindings := (tables.put b).bindings } := by
  unfold Tables.put
  split <;> rfl

theorem put_of_unbound {tables : Tables} {b : Binding} (h : tables.binding? b.key = none) :
    tables.put b = { tables with bindings := tables.bindings ++ [b] } := by
  have hany : tables.bindings.any (·.key == b.key) = false := by
    simpa [Tables.binding?] using h
  unfold Tables.put
  rw [hany]
  rfl

theorem binding?_append {tables : Tables} {b : Binding} (h : tables.binding? b.key = none)
    (key : Key) :
    Tables.binding? { tables with bindings := tables.bindings ++ [b] } key =
      if key = b.key then some b else tables.binding? key := by
  unfold Tables.binding? at h ⊢
  rw [List.find?_append]
  split
  · next heq =>
    rw [heq, h]
    simp
  · next hne =>
    have : ¬ b.key = key := fun heq => hne heq.symm
    simp [this]

@[simp]
theorem binding?_put (tables : Tables) (b : Binding) (key : Key) :
    (tables.put b).binding? key = if key = b.key then some b else tables.binding? key := by
  cases hbound : tables.binding? b.key with
  | none =>
    rw [put_of_unbound hbound]
    exact binding?_append hbound key
  | some old =>
    have hany : tables.bindings.any (·.key == b.key) := by
      obtain ⟨hmem, hkey⟩ := mem_of_binding? hbound
      exact List.any_eq_true.mpr ⟨old, hmem, by simp [hkey]⟩
    unfold Tables.put
    rw [if_pos hany]
    unfold Tables.binding? at hbound ⊢
    -- Replacing keeps the keys, so the same place of the list is found.
    have hfind : ∀ bs : List Binding, (bs.map fun old => if old.key == b.key then b else old).find?
        (·.key == key) = (bs.find? (·.key == key)).map fun old =>
          if old.key == b.key then b else old := by
      intro bs
      rw [List.find?_map]
      congr 2
      funext other
      simp only [Function.comp_apply]
      split
      · next heq => rw [eq_of_beq heq]
      · rfl
    rw [hfind]
    split
    · next heq =>
      obtain ⟨-, hkey⟩ := mem_of_binding? hbound
      rw [heq, hbound]
      simp [hkey]
    · next hne =>
      cases hfound : tables.bindings.find? (·.key == key) with
      | none => rfl
      | some other =>
        have hkey : other.key = key := by simpa using List.find?_some hfound
        simp [hkey, hne]

/-- An unbound key may be bound by resolution. -/
theorem Evolves.put_unbound {b : Binding} (hunbound : s.tables.binding? b.key = none)
    (himplicit : b.origin = .implicit) : s.Evolves { s with tables := s.tables.put b } where
  declarations := rfl
  constructions := by rw [put_of_unbound hunbound]
  kept key old hold := by
    by_cases heq : key = b.key
    · rw [heq, hunbound] at hold
      cases hold
    · simpa [heq] using hold
  added key new hnew := by
    by_cases heq : key = b.key
    · obtain rfl : b = new := by simpa [heq] using hnew
      exact .inr ⟨heq ▸ hunbound, himplicit⟩
    · exact .inl (by simpa [heq] using hnew)
  owners _ _ h := h
  inProgress := rfl
  filling := rfl

/-- What a new implicit binding of a key leaves of a state. -/
structure Gains (U : List Key) (s : State) (key : Key) (c : Construction) (f : Factory) (t : State) :
    Prop where
  leads : s.Leads U t
  builds : f.Builds key c
  bound : t.tables.binding? key = some { key, factory := f, origin := .implicit }
  others : ∀ other, other ≠ key → t.tables.binding? other = s.tables.binding? other

theorem Sound.gains (h : s.Sound U) {key : Key} {maker : TypePath} {kept : Factory}
    (hunbound : s.tables.binding? key = none) (hkey : key ∈ U)
    (hkept : Factory.Kept (.construct key (s.declared maker)) kept)
    (htidy : kept.Tidy s.owner? (some key)) :
    s.Gains U key (s.declared maker) (.guarded key kept)
      { s with tables := s.tables.put { key, factory := .guarded key kept, origin := .implicit } } := by
  refine ⟨⟨.put_unbound hunbound rfl, ?_⟩, ⟨kept, rfl, hkept⟩, by simp,
    fun other hother => by simp [hother]⟩
  exact
    { toWired := h.toWired.put rfl htidy fun _ => ⟨maker, kept, rfl, hkept⟩
      distinct := h.distinct
      filling := h.filling
      known := by
        obtain ⟨hsubstitutor, hdeclared, hbindings, hsuppliers⟩ := knownKeys_subset_iff.mp h.known
        refine knownKeys_subset_iff.mpr ⟨hsubstitutor, hdeclared, fun b hb => ?_, hsuppliers⟩
        rcases mem_put hb with rfl | hb
        · refine ⟨hkey, List.cons_subset.mpr ⟨hkey, ?_⟩⟩
          rw [hkept.keys_eq]
          exact fun k hk => hdeclared (s.keys_declared_subset maker hk)
        · exact hbindings b hb
      running := h.running }

end State

end ComponentAssembly

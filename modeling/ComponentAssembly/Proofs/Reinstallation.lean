import ComponentAssembly.Proofs.Permanence
import ComponentAssembly.Proofs.Singletons

/-!
# When the keys of a method stay one binding

A method is installed under all its keys at once, with one factory.  When its module is installed
again, the keys that it declares then get a new factory; those that it declares no more keep the old.
So the keys that are bound from a method share a factory for as long as each installation has them all
(`Module.Renews`), and for a singleton no longer than that (`Reachable.shares_renewed`):

    v.Shares source  ↔  m.Renews s source          where installing m leads from s to v

The cell of a singleton that is installed is fresh.  What earlier installations have made is in other
cells, which are out of reach for the keys that share the new one.
-/

namespace ComponentAssembly

open Assemble

/-- All keys that are bound from a source are bound to one factory. -/
def State.Shares (s : State) (source : String) : Prop :=
  ∀ key key' b b', s.tables.binding? key = some b → s.tables.binding? key' = some b' →
    b.origin = .explicit source → b'.origin = .explicit source → b.factory = b'.factory

/-- At most one method of a module is bound from a source, and it has all keys that are bound from
there already. -/
structure Module.Renews (m : Module) (s : State) (source : String) : Prop where
  single : ∀ method ∈ m.methods, ∀ other ∈ m.methods, m.sourceOf method = source →
    m.sourceOf other = source → method = other
  covers : ∀ method ∈ m.methods, m.sourceOf method = source →
    ∀ key, s.source? key = some source → key ∈ method.keys

/-- A request binds nothing from a source, or installs a module that renews all that is bound from
there. -/
def Request.Renews (s : State) (source : String) : Request → Prop
  | registerBinding _ _ origin => origin ≠ source
  | installModule m => m.Disjoint → m.FreeIn s → m.Renews s source
  | _ => True

/-- Each of some requests renews what is bound from a source then. -/
def State.Renewing (source : String) : State → List Request → Prop
  | _, [] => True
  | s, r :: rs => r.Renews s source ∧ State.Renewing source (r.run s).2 rs

/-- What is renewed does not depend on the journal. -/
theorem Module.renews_iff_of_notes {m : Module} {s u : State} {source : String} (h : s.Notes m u) :
    m.Renews u source ↔ m.Renews s source := by
  obtain ⟨log, rfl⟩ := h
  exact ⟨fun h => ⟨h.single, h.covers⟩, fun h => ⟨h.single, h.covers⟩⟩

/-- Methods of a module that have a key in common are one method. -/
theorem Module.Disjoint.eq_of_mem {m : Module} (h : m.Disjoint) {first second : FactoryMethod}
    (hfirst : first ∈ m.methods) (hsecond : second ∈ m.methods) {key : Key} (hkey : key ∈ first.keys)
    (hkey' : key ∈ second.keys) : first = second := by
  refine List.Pairwise.forall_of_forall_of_flip
    (R := fun first second : FactoryMethod => key ∈ first.keys → key ∈ second.keys → first = second)
    (fun _ _ _ _ => rfl) ?_ ?_ hfirst hsecond hkey hkey'
  · exact h.imp fun hdisjoint hkey hkey' => absurd hkey' (hdisjoint hkey)
  · exact h.imp fun hdisjoint hkey hkey' => absurd hkey (hdisjoint hkey')

namespace State

variable {s t v : State} {m : Module} {source : String} {held : List Factory}

/-! ## What is bound from a source -/

theorem Shares.of_bindings (h : s.Shares source)
    (hold : ∀ key b, t.tables.binding? key = some b → b.origin = .explicit source →
      s.tables.binding? key = some b) : t.Shares source := by
  intro key key' b b' hb hb' hsource hsource'
  exact h key key' b b' (hold key b hb hsource) (hold key' b' hb' hsource') hsource hsource'

/-- Where a key is bound from a source after an installation, a method of that source has it, or no
method has it and it is bound as before. -/
theorem Installs.bound_from (h : s.Installs m m.methods v) {key : Key} {b : Binding}
    (hb : v.tables.binding? key = some b) (hsource : b.origin = .explicit source) :
    (∃ method ∈ m.methods, key ∈ method.keys ∧ m.sourceOf method = source) ∨
      (∀ method ∈ m.methods, key ∉ method.keys) ∧ s.tables.binding? key = some b := by
  by_cases hmethod : ∃ method ∈ m.methods, key ∈ method.keys
  · obtain ⟨method, hmethod, hkey⟩ := hmethod
    obtain ⟨kept, -, hbound⟩ := h.bound method hmethod
    rw [hbound key hkey] at hb
    cases hb
    exact .inl ⟨method, hmethod, hkey, Origin.explicit.inj hsource⟩
  · have hnone : ∀ method ∈ m.methods, key ∉ method.keys := fun method hmem hkey =>
      hmethod ⟨method, hmem, hkey⟩
    exact .inr ⟨hnone, h.others key hnone ▸ hb⟩

/-- A method that renews its source has all keys that are bound from there afterwards. -/
theorem Installs.mem_keys (h : s.Installs m m.methods v) (hrenews : m.Renews s source)
    {method : FactoryMethod} (hmethod : method ∈ m.methods) (hown : m.sourceOf method = source)
    {key : Key} (hkey : v.source? key = some source) : key ∈ method.keys := by
  obtain ⟨b, hb, hsource⟩ := source?_eq_some_iff.mp hkey
  rcases h.bound_from hb hsource with ⟨other, hother, hkey, hown'⟩ | ⟨-, hold⟩
  · rw [hrenews.single method hmethod other hother hown hown']
    exact hkey
  · exact hrenews.covers method hmethod hown key (source?_eq_some_iff.mpr ⟨b, hold, hsource⟩)

theorem Installs.shares (h : s.Installs m m.methods v) (hs : s.Shares source)
    (hrenews : m.Renews s source) : v.Shares source := by
  by_cases hown : ∃ method ∈ m.methods, m.sourceOf method = source
  · obtain ⟨method, hmethod, hown⟩ := hown
    obtain ⟨kept, -, hbound⟩ := h.bound method hmethod
    have hall : ∀ key b, v.tables.binding? key = some b → b.origin = .explicit source →
        b.factory = .guarded method.key kept := by
      intro key b hb hsource
      have hkey := h.mem_keys hrenews hmethod hown (source?_eq_some_iff.mpr ⟨b, hb, hsource⟩)
      rw [hbound key hkey] at hb
      cases hb
      rfl
    intro key key' b b' hb hb' hsource hsource'
    rw [hall key b hb hsource, hall key' b' hb' hsource']
  · refine hs.of_bindings fun key b hb hsource => ?_
    rcases h.bound_from hb hsource with ⟨method, hmethod, -, hmine⟩ | ⟨-, hold⟩
    · exact absurd ⟨method, hmethod, hmine⟩ hown
    · exact hold

/-- A singleton is installed with a fresh cell, so that its keys share a factory with no other key. -/
theorem Installs.renews (h : s.Installs m m.methods v) (hdisjoint : m.Disjoint) (hfree : m.FreeIn s)
    (hcoherent : s.Coherent held) {method : FactoryMethod} (hmethod : method ∈ m.methods)
    (hown : m.sourceOf method = source)
    (hscope : s.tables.scopeOf method.scope = .singleton) (hv : v.Shares source) :
    m.Renews s source := by
  obtain ⟨kept, hwraps, hbound⟩ := h.bound method hmethod
  rw [hscope] at hwraps
  cases hwraps with
  | @singleton cell hfresh hempty =>
    have hmain := hbound method.key List.mem_cons_self
    have hshared : ∀ key b, v.tables.binding? key = some b → b.origin = .explicit source →
        b.factory = .guarded method.key (.once cell (.method method.key method.recipe)) :=
      fun key b hb hsource => hv key method.key b _ hb hmain hsource (by rw [hown])
    have hsingle : ∀ other ∈ m.methods, m.sourceOf other = source → method = other := by
      intro other hother hsource
      obtain ⟨kept, -, hbound'⟩ := h.bound other hother
      have hguard := hshared other.key _ (hbound' other.key List.mem_cons_self) (by rw [hsource])
      have hkey : other.key = method.key := (Factory.guarded.inj hguard).1
      exact hdisjoint.eq_of_mem hmethod hother List.mem_cons_self (hkey ▸ List.mem_cons_self)
    constructor
    · intro first hfirst second hsecond hown hown'
      rw [← hsingle first hfirst hown, ← hsingle second hsecond hown']
    · intro first hfirst hown key hkey
      rw [← hsingle first hfirst hown]
      obtain ⟨b, hb, hsource⟩ := source?_eq_some_iff.mp hkey
      by_contra hnot
      -- A key that is left out keeps its factory, the cell of which was there before.
      have hkept : v.tables.binding? key = some b := by
        refine (h.others key fun other hother hmem => hnot ?_).trans hb
        rw [hsingle other hother (hfree other hother key hmem source hkey).symm]
        exact hmem
      have hcell := (hcoherent b.factory (.inr (.inl ⟨b, (mem_of_binding? hb).1, rfl⟩))
        (cell, .method method.key method.recipe)
        (by rw [hshared key b hkept hsource]; exact List.mem_cons_self)).1
      exact absurd hcell (Nat.not_lt.mpr hfresh)

/-- The keys that share a singleton that has just been installed lead to a fresh cell, which is empty. -/
theorem Installs.fresh (h : s.Installs m m.methods v) (hrenews : m.Renews s source)
    {method : FactoryMethod} (hmethod : method ∈ m.methods) (hown : m.sourceOf method = source)
    (hscope : s.tables.scopeOf method.scope = .singleton) :
    ∃ cell, s.cells.length ≤ cell ∧ v.cell? cell = none ∧
      ∀ key, v.source? key = some source ↔ v.tables.binding? key = some
        { key, origin := .explicit source,
          factory := .guarded method.key (.once cell (.method method.key method.recipe)) } := by
  obtain ⟨kept, hwraps, hbound⟩ := h.bound method hmethod
  rw [hscope] at hwraps
  cases hwraps with
  | @singleton cell hfresh hempty =>
    refine ⟨cell, hfresh, by simp [cell?, hempty], fun key => ⟨fun hkey => ?_, fun hb => ?_⟩⟩
    · rw [hbound key (h.mem_keys hrenews hmethod hown hkey), hown]
    · exact source?_eq_some_iff.mpr ⟨_, hb, rfl⟩

end State

/-! ## Requests -/

section

variable {s : State} {source : String} {held : List Factory}

/-- Where a key is bound from a source after a request, the request was to bind it from there, or it
was bound so before. -/
theorem Request.run_bound (r : Request) {key : Key} {b : Binding}
    (hb : (r.run s).2.tables.binding? key = some b) (hsource : b.origin = .explicit source) :
    s.tables.binding? key = some b ∨ r.Registers key source := by
  cases r.leaves s key with
  | same hsame => exact .inl (hsame.symm.trans hb)
  | added hunbound hb' himplicit =>
    cases hb.symm.trans hb'
    cases hsource.symm.trans himplicit
  | registered hregisters hdone hown hb' hsource' =>
    cases hb.symm.trans hb'
    cases hsource.symm.trans hsource'
    exact .inr hregisters

/-- **One request.**  The keys that are bound from a source go on sharing a factory if the request
renews what is bound from there. -/
theorem Request.run_shares {r : Request} (hs : s.Shares source) (hr : r.Renews s source) :
    (r.run s).2.Shares source := by
  cases r with
  | installModule m =>
    obtain ⟨u, hnotes, ⟨hdisjoint, hfree, t, hrun, hinstalls⟩ | ⟨cause, -, hrun⟩⟩ :=
      s.installModule_spec m
    · have hrenews := (Module.renews_iff_of_notes hnotes).mpr (hr hdisjoint hfree)
      obtain ⟨log, rfl⟩ := hnotes
      rw [run_installModule, hrun]
      exact hinstalls.shares hs hrenews
    · obtain ⟨log, rfl⟩ := hnotes
      rw [run_installModule, hrun]
      exact hs
  | registerBinding key f origin =>
    exact hs.of_bindings fun _ _ hb hsource =>
      (run_bound _ hb hsource).resolve_right fun hregisters => hr hregisters.2
  | _ => exact hs.of_bindings fun _ _ hb hsource => (run_bound _ hb hsource).resolve_right id

theorem State.after_shares {rs : List Request} (hs : s.Shares source) (hrs : s.Renewing source rs) :
    (s.after rs).Shares source := by
  induction rs generalizing s with
  | nil => exact hs
  | cons r rs ih => exact ih (r.run_shares hs hrs.1) hrs.2

/-- Where no request is to bind from a source, what is bound from there was so before. -/
theorem State.after_bound {rs : List Request} (hrs : ∀ r ∈ rs, ∀ key, ¬ r.Registers key source)
    {key : Key} {b : Binding} (hb : (s.after rs).tables.binding? key = some b)
    (hsource : b.origin = .explicit source) : s.tables.binding? key = some b := by
  induction rs generalizing s with
  | nil => exact hb
  | cons r rs ih =>
    have hrest := ih (fun r hr => hrs r (List.mem_cons_of_mem _ hr)) hb
    exact (r.run_bound hrest hsource).resolve_right (hrs r List.mem_cons_self key)

theorem Reachable.after (h : Reachable s held) {rs : List Request} (hrs : s.Allows held rs) :
    ∃ held', Reachable (s.after rs) held' := by
  induction rs generalizing s held with
  | nil => exact ⟨held, h⟩
  | cons r rs ih => exact ih (h.step r hrs.1) hrs.2

/-! ## What the keys give -/

variable {guard : Key} {cell : Nat} {inner : Factory} {i : Instance}

/-- A call runs its factory. -/
theorem Factory.call_run (f : Factory) (s : State) :
    ∃ depth, f.call s = f.run (Provider.of (callWithin depth)) s :=
  ⟨s.knownKeys.length + f.keys.length + 1, rfl⟩

theorem call_serves (f : Factory) (hkept : f.kept? = some (cell, inner))
    (hcell : cell < s.cells.length) :
    ∃ make, s.Serves f cell make (f.call s).1 (f.call s).2 := by
  obtain ⟨depth, hrun⟩ := f.call_run s
  rw [hrun]
  exact ⟨_, run_serves rfl (Growing.run (Growing.callWithin depth) inner) hkept hcell⟩

theorem getInstance_bound {key : Key} {b : Binding} (hb : s.tables.binding? key = some b) :
    getInstance key s = b.factory.call s :=
  bind_ok (State.getFactory_bound hb)

theorem State.lt_of_cell? (hi : s.cell? cell = some i) : cell < s.cells.length := by
  obtain ⟨c, hc, -⟩ := Option.bind_eq_some_iff.mp hi
  exact (List.getElem?_eq_some_iff.mp hc).1

/-- A full cell gives its instance to all keys that lead to it. -/
theorem getInstance_filled (hidle : s.inProgress = []) (hi : s.cell? cell = some i) {key : Key}
    {b : Binding} (hb : s.tables.binding? key = some b)
    (hfactory : b.factory = .guarded guard (.once cell inner)) :
    getInstance key s = (.ok i, s) := by
  obtain ⟨make, hserves⟩ := call_serves (s := s) b.factory (by rw [hfactory]; rfl)
    (State.lt_of_cell? hi)
  obtain ⟨hsame, hresult⟩ := hserves.full i hi
  rw [getInstance_bound hb]
  refine Prod.ext (hresult ?_) hsame
  rw [hfactory]
  exact ⟨List.nodup_singleton _, by simp [hidle]⟩

/-- The instance that a shared singleton has given is given under all its keys, until something is
bound from its source anew. -/
theorem Reachable.getInstance_shared (h : Reachable s held) (hs : s.Shares source) {key : Key}
    {b : Binding} {u : State} (hb : s.tables.binding? key = some b)
    (hsource : b.origin = .explicit source) (hfactory : b.factory = .guarded guard (.once cell inner))
    (hrun : getInstance key s = (.ok i, u)) {rs : List Request} (hrs : u.Allows held rs)
    (hapart : ∀ r ∈ rs, ∀ key, ¬ r.Registers key source) {key' : Key}
    (hkey' : (u.after rs).source? key' = some source) :
    getInstance key' (u.after rs) = (.ok i, u.after rs) := by
  have hcell : cell < s.cells.length :=
    (h.coherent b.factory (.inr (.inl ⟨b, (State.mem_of_binding? hb).1, rfl⟩)) (cell, inner)
      (by rw [hfactory]; exact List.mem_cons_self)).1
  obtain ⟨make, hserves⟩ := call_serves (s := s) b.factory (by rw [hfactory]; rfl) hcell
  rw [← getInstance_bound hb, hrun] at hserves
  have hfilled : u.cell? cell = some i := hserves.given i rfl
  have hu : (Request.run (.getInstance key) s).2 = u := congrArg Prod.snd hrun
  have hreachable : Reachable u held := hu ▸ h.step (.getInstance key) trivial
  obtain ⟨held', hafter⟩ := hreachable.after hrs
  -- No key has come to be bound from the source since, so that all of them share the factory.
  obtain ⟨b', hb', hsource'⟩ := State.source?_eq_some_iff.mp hkey'
  have hbu := State.after_bound hapart hb' hsource'
  have hbs : s.tables.binding? key' = some b' :=
    (Request.run_bound (.getInstance key) (hu ▸ hbu) hsource').resolve_right id
  refine getInstance_filled hafter.settled.idle ?_ hb'
    ((hs key' key b' b hbs hb hsource' hsource).trans hfactory)
  exact State.before_after hreachable.coherent hrs cell i hfilled

/-- When a singleton is installed, the keys of its source share a factory exactly if the module renews
what is bound from there.  Then they lead to a cell that nothing has been kept in. -/
theorem Reachable.installModule_shares (h : Reachable s held) (hs : s.Shares source) {m : Module}
    (hdisjoint : m.Disjoint) (hfree : m.FreeIn s) {method : FactoryMethod}
    (hmethod : method ∈ m.methods) (hown : m.sourceOf method = source)
    (hscope : s.tables.scopeOf method.scope = .singleton) :
    ∃ v, installModule m s = (.ok (), v) ∧ (v.Shares source ↔ m.Renews s source) ∧
      (m.Renews s source → ∃ cell, (∀ old i, s.cell? old = some i → old ≠ cell) ∧
        v.cell? cell = none ∧
          ∀ key, v.source? key = some source ↔ v.tables.binding? key = some
            { key, origin := .explicit source,
              factory := .guarded method.key (.once cell (.method method.key method.recipe)) }) := by
  obtain ⟨u, hnotes, ⟨-, -, v, hrun, hinstalls⟩ | ⟨cause, hrefused, -⟩⟩ := s.installModule_spec m
  · rw [← Module.renews_iff_of_notes hnotes]
    obtain ⟨log, rfl⟩ := hnotes
    refine ⟨v, hrun, ⟨?_, hinstalls.shares hs⟩, fun hrenews => ?_⟩
    · exact hinstalls.renews hdisjoint hfree h.coherent hmethod hown hscope
    · obtain ⟨cell, hfresh, hempty, hkeys⟩ := hinstalls.fresh hrenews hmethod hown hscope
      refine ⟨cell, fun old i hi => ?_, hempty, hkeys⟩
      exact Nat.ne_of_lt (Nat.lt_of_lt_of_le (State.lt_of_cell? hi) hfresh)
  · exact absurd ⟨hdisjoint, hfree⟩ hrefused.not_free

end

/-- **The keys of a method stay one binding where every installation has them all.**  From a reachable
state in which the keys that are bound from a source share a factory, they go on to do so through any
requests that renew what is bound from there.  If they share a singleton, the instance that one of them
has given is given by all of them, until something is bound from the source anew.  When a singleton
method of the source is installed, its keys share a factory exactly if it renews what is bound from
there; then they lead to a fresh cell, while all that has been made before is in others. -/
theorem Reachable.shares_renewed {s : State} {held : List Factory} (h : Reachable s held)
    {source : String} (hs : s.Shares source) :
    (∀ rs : List Request, s.Renewing source rs → (s.after rs).Shares source) ∧
      (∀ key b guard cell inner i u, s.tables.binding? key = some b → b.origin = .explicit source →
        b.factory = .guarded guard (.once cell inner) → getInstance key s = (.ok i, u) →
          ∀ rs : List Request, u.Allows held rs → (∀ r ∈ rs, ∀ key, ¬ r.Registers key source) →
            ∀ key', (u.after rs).source? key' = some source →
              getInstance key' (u.after rs) = (.ok i, u.after rs)) ∧
      ∀ m : Module, m.Disjoint → m.FreeIn s → ∀ method ∈ m.methods, m.sourceOf method = source →
        s.tables.scopeOf method.scope = .singleton →
          ∃ v, installModule m s = (.ok (), v) ∧ (v.Shares source ↔ m.Renews s source) ∧
            (m.Renews s source → ∃ cell, (∀ old i, s.cell? old = some i → old ≠ cell) ∧
              v.cell? cell = none ∧
                ∀ key, v.source? key = some source ↔ v.tables.binding? key = some
                  { key, origin := .explicit source,
                    factory := .guarded method.key (.once cell (.method method.key method.recipe)) }) := by
  refine ⟨fun rs => State.after_shares hs, ?_, ?_⟩
  · intro key b guard cell inner i u hb hsource hfactory hrun rs hrs hapart key'
    exact h.getInstance_shared hs hb hsource hfactory hrun hrs hapart
  · intro m hdisjoint hfree method hmethod hown hscope
    exact h.installModule_shares hs hdisjoint hfree hmethod hown hscope

/-! ## A clock that loses a name -/

/-- The module of the clock, which declares one key only. -/
def Module.clockAlone : Module :=
  { Module.clock with methods := Module.clock.methods.map fun method => { method with aliases := [] } }

theorem State.after_installed {s v : State} {m : Module} (hrun : installModule m s = (.ok (), v))
    (rs : List Request) : s.after (.installModule m :: rs) = v.after rs := by
  simp [State.after, hrun]

theorem State.shares_initial (source : String) : (State.initial [] {} []).Shares source :=
  fun _ _ _ _ hb _ _ _ => by cases hb

theorem State.mem_of_source? {s : State} {keys : List Key} {key : Key} {source : String}
    (h : s.tables.bindings.all (fun b => keys.contains b.key) = true)
    (hkey : s.source? key = some source) : key ∈ keys := by
  obtain ⟨b, hb, -⟩ := source?_eq_some_iff.mp hkey
  obtain ⟨hmem, rfl⟩ := mem_of_binding? hb
  simpa using List.all_eq_true.mp h b hmem

theorem Module.clock_renews {s : State} {source : String} (h : s.tables.bindings.all (fun b =>
      [Key.of ⟨"Clock"⟩, Key.withName (.of ⟨"Clock"⟩) "wall"].contains b.key) = true) :
    Module.clock.Renews s source where
  single method hmethod other hother _ _ := by
    rw [List.mem_singleton.mp hmethod, List.mem_singleton.mp hother]
  covers method hmethod _ key hkey := by
    rw [List.mem_singleton.mp hmethod]
    exact State.mem_of_source? h hkey

/-- A clock that has failed once gives both of its keys one instance, and stays one binding when it is
installed again under both of them.  Installed under one key, it is none any more. -/
theorem shares_renewed_clock :
    let clock := Key.of ⟨"Clock"⟩
    let wall := clock.withName "wall"
    let s := State.after (.initial [] {} []) [.installModule .clock, .getInstance wall]
    (∃ i u, getInstance wall s = (.ok i, u) ∧ getInstance clock u = (.ok i, u)) ∧
      (s.after [.getInstance wall, .installModule .clock]).Shares "Clocks::clock" ∧
      ∃ v, installModule .clockAlone s = (.ok (), v) ∧ ¬ v.Shares "Clocks::clock" := by
  intro clock wall s
  have hinitial := Reachable.initial [] {} []
  have hnone := State.shares_initial "Clocks::clock"
  obtain ⟨held, hreachable⟩ : ∃ held, Reachable s held := hinitial.after ⟨trivial, trivial, trivial⟩
  have hrenews : Module.clock.Renews (.initial [] {} []) "Clocks::clock" :=
    Module.clock_renews (by decide +kernel)
  have hbound : s.source? wall = some "Clocks::clock" ∧ s.source? clock = some "Clocks::clock" := by
    decide +kernel
  obtain ⟨hruns, hgives, hinstalls⟩ :=
    hreachable.shares_renewed (State.after_shares hnone ⟨fun _ _ => hrenews, trivial, trivial⟩)
  have hagain : State.Renewing "Clocks::clock" s [.getInstance wall, .installModule .clock] :=
    ⟨trivial, fun _ _ => Module.clock_renews (by decide +kernel), trivial⟩
  refine ⟨?_, hruns _ hagain, ?_⟩
  · obtain ⟨v, hrun, -, hfresh⟩ := (hinitial.shares_renewed hnone).2.2 .clock
      (List.pairwise_singleton _ _) (fun _ _ _ _ _ h => by cases h) _ (List.mem_singleton.mpr rfl) rfl
      (by decide +kernel)
    obtain ⟨cell, -, -, hkeys⟩ := hfresh hrenews
    have hs : s = v.after [.getInstance wall] := State.after_installed hrun _
    obtain ⟨b, hb, hsource⟩ := State.source?_eq_some_iff.mp hbound.1
    have hbv : v.tables.binding? wall = some b :=
      State.after_bound (fun r hr _ => by rw [List.mem_singleton.mp hr]; exact id) (hs ▸ hb) hsource
    have hwall := hbv.symm.trans ((hkeys wall).mp (State.source?_eq_some_iff.mpr ⟨b, hbv, hsource⟩))
    cases hwall
    have hmade : (getInstance wall s).1.toBool = true := by decide +kernel
    have hafter : (getInstance wall s).2.source? clock = some "Clocks::clock" := by decide +kernel
    rcases hrun : getInstance wall s with ⟨result, u⟩
    rw [hrun] at hmade hafter
    cases result with
    | error stop => cases hmade
    | ok i =>
      exact ⟨i, u, rfl, hgives wall _ clock cell _ i u hb rfl rfl hrun [] trivial
        (fun _ hr => by cases hr) clock hafter⟩
  · have hfree : Module.clockAlone.FreeIn s := by
      intro method hmethod key hkey existing hexisting
      rw [List.mem_singleton.mp hmethod] at hkey ⊢
      rw [List.mem_singleton.mp hkey, hbound.2] at hexisting
      exact (Option.some.inj hexisting).symm
    obtain ⟨v, hrun, hiff, -⟩ := hinstalls .clockAlone (List.pairwise_singleton _ _) hfree _
      (List.mem_singleton.mpr rfl) (by decide +kernel) (by decide +kernel)
    refine ⟨v, hrun, fun hv => ?_⟩
    have hkeys := (hiff.mp hv).covers _ (List.mem_singleton.mpr rfl) (by decide +kernel) wall hbound.1
    exact absurd hkeys (by decide +kernel)

/-- Not all keys that are bound from a method share a factory: one that the method has no more, when it
is installed again, keeps the old. -/
theorem not_shares_reinstalled :
    ¬ ∀ (rs : List Request) (source : String), State.Allows (.initial [] {} []) [] rs →
      (∀ r ∈ rs, ∀ key f, r ≠ .registerBinding key f source) →
        (State.after (.initial [] {} []) rs).Shares source := by
  intro h
  let t := State.after (.initial [] {} []) [.installModule .clock, .installModule .clockAlone]
  have hshares : t.Shares "Clocks::clock" := h _ _ ⟨trivial, trivial, trivial⟩ (by simp)
  have hclock : t.source? (.of ⟨"Clock"⟩) = some "Clocks::clock" ∧
      ((t.factory? (.of ⟨"Clock"⟩)).bind Factory.kept?).map (·.1) = some 1 := by decide +kernel
  have hwall : t.source? (.withName (.of ⟨"Clock"⟩) "wall") = some "Clocks::clock" ∧
      ((t.factory? (.withName (.of ⟨"Clock"⟩) "wall")).bind Factory.kept?).map (·.1) = some 0 := by
    decide +kernel
  obtain ⟨b, hb, hsource⟩ := State.source?_eq_some_iff.mp hclock.1
  obtain ⟨b', hb', hsource'⟩ := State.source?_eq_some_iff.mp hwall.1
  have hsame := hshares _ _ b b' hb hb' hsource hsource'
  have hcells := hclock.2
  rw [State.factory?_of_binding? hb, hsame, ← State.factory?_of_binding? hb', hwall.2] at hcells
  cases hcells

end ComponentAssembly

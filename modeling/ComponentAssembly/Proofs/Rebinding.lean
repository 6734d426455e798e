import ComponentAssembly.Proofs.Avoidance
import ComponentAssembly.Proofs.Nesting
import ComponentAssembly.Proofs.Reinstallation

/-!
# Factories that are bound again

A factory that was handed out guards its key already.  Bound again, it is guarded once more, by the key
that it is bound to now:

    f guards the key            the key cannot be had any more: a cycle is reported, and f is not run
    a call of f avoids it       the key gives what the call gives
    f keeps its instance        the key gives the instance that f gave, however long ago
-/

namespace ComponentAssembly

open Assemble Stoppable

section

variable {provider : Provider} {f : Factory} {key : Key} {s t : State}

/-- A factory is not entered through a guard of a key in progress. -/
theorem Factory.run_refused (henter : provider.enter = withGuard) (hkey : key ∈ f.guards)
    (hrunning : key ∈ s.inProgress) :
    ∃ chain, f.run provider s = (.error (.error (.circularDependency chain)), s) := by
  induction f generalizing s with
  | guarded k inner ih =>
    simp only [Factory.run, henter]
    cases hchain : cycleChain s.inProgress k with
    | some chain => exact ⟨chain, withGuard_circular hchain _⟩
    | none =>
      have hne : key ≠ k := by
        rintro rfl
        exact cycleChain_eq_none_iff.mp hchain hrunning
      obtain ⟨chain, hinner⟩ := ih ((List.mem_cons.mp hkey).resolve_left hne)
        (s := { s with inProgress := s.inProgress ++ [k] }) (List.mem_append_left _ hrunning)
      refine ⟨chain, ?_⟩
      rw [withGuard_entered hchain, hinner]
      simp
  | _ => cases hkey

/-- A factory that gives an instance was entered through all its guards. -/
theorem Factory.canEnter_of_run (henter : provider.enter = withGuard) {i : Instance}
    (h : (f.run provider s).1 = .ok i) : f.CanEnter s := by
  induction f generalizing s with
  | guarded k inner ih =>
    simp only [Factory.run, henter] at h
    cases hchain : cycleChain s.inProgress k with
    | some chain =>
      rw [withGuard_circular hchain] at h
      cases h
    | none =>
      rw [withGuard_entered hchain] at h
      obtain ⟨hdistinct, hfree⟩ := ih (s := { s with inProgress := s.inProgress ++ [k] }) h
      have hnotmem : k ∉ inner.guards := fun hmem => hfree k hmem (by simp)
      refine ⟨List.nodup_cons.mpr ⟨hnotmem, hdistinct⟩, fun other hother => ?_⟩
      rcases List.mem_cons.mp hother with rfl | hother
      · exact cycleChain_eq_none_iff.mp hchain
      · exact fun hmem => hfree other hother (List.mem_append_left _ hmem)
  | _ => exact ⟨List.nodup_nil, fun _ hmem => by cases hmem⟩

end

/-- One state differs from another by the binding of a key, and by the log. -/
structure State.DiffersAt (key : Key) (s t : State) : Prop where
  others : ∀ k, k ≠ key → t.tables.binding? k = s.tables.binding? k
  rest : t = { s with
    tables := { s.tables with bindings := t.tables.bindings }
    journal := { s.journal with log := t.journal.log } }

theorem State.Shadows.differsAt {key : Key} {s t u : State} (h : s.Shadows key [] t)
    (h' : s.Shadows key [key] u) (hidle : t.inProgress = []) :
    t.DiffersAt key { u with inProgress := [] } := by
  refine ⟨fun k hk => (h'.binding? hk).trans (h.binding? hk).symm, ?_⟩
  obtain ⟨bindings, log, -, rfl⟩ := h
  obtain ⟨bindings', log', -, rfl⟩ := h'
  have hidle : s.inProgress = [] := hidle
  simp [State.shadow, hidle]

/-- A factory gave an instance before: it was called while it was held, and requests led from there to
the state. -/
def State.Got (s : State) (f : Factory) (i : Instance) : Prop :=
  ∃ s₀ held t₀ rs, Reachable s₀ held ∧ f ∈ held ∧ f.call s₀ = (.ok i, t₀) ∧ t₀.Allows held rs ∧
    s = t₀.after rs

section

variable {f inner : Factory} {key : Key} {source : String} {held : List Factory} {cell : Nat}
  {i : Instance} {s s' t : State}

/-- What a singleton gave is in its cell for good. -/
theorem State.Got.kept (h : s.Got f i) (hkept : f.kept? = some (cell, inner)) :
    s.cell? cell = some i ∧ f.guards.Nodup := by
  obtain ⟨s₀, held, t₀, rs, hreachable, hf, hcall, hrs, rfl⟩ := h
  have hcell := (hreachable.coherent f (.inl hf) _ (Factory.mem_cells_of_kept? hkept)).1
  obtain ⟨make, hserves⟩ := call_serves f hkept hcell
  have hgiven := hserves.given i (by rw [hcall])
  obtain ⟨depth, hrun⟩ := f.call_run s₀
  rw [hcall] at hgiven hrun
  have hafter : (Request.call f).run s₀ = (.object (.ok i), t₀) := by
    show (Reply.object (f.call s₀).1, (f.call s₀).2) = _
    rw [hcall]
  have hcoherent := (hreachable.step (.call f) hf).coherent
  rw [hafter] at hcoherent
  refine ⟨State.before_after hcoherent hrs cell i hgiven, ?_⟩
  exact (Factory.canEnter_of_run rfl (by rw [← hrun])).1

/-- A factory that was handed out in a reachable state is bound to a key. -/
structure Rebound (s : State) (held : List Factory) (f : Factory) (key : Key) (source : String)
    (s' : State) : Prop where
  reachable : Reachable s held
  held : f ∈ held
  bound : registerBinding key f source s = (.ok (), s')

namespace Rebound

variable (h : Rebound s held f key source s')
include h

theorem binds : s.Binds [key] (.guarded key f) source s' := by
  rcases s.insertBinding_spec key (.guarded key f) source with
    ⟨existing, -, -, hrun⟩ | ⟨-, t, hrun, hbinds⟩
  · cases h.bound.symm.trans hrun
  · cases h.bound.symm.trans hrun
    exact hbinds

theorem settled : s'.Settled held := by
  have hbound : insertBinding { key, factory := .guarded key f, origin := .explicit source } s =
      (.ok (), s') := h.bound
  have hsettled := (h.reachable.step (.registerBinding key f source) (.inl h.held)).settled
  rw [Request.run_registerBinding, hbound] at hsettled
  exact hsettled

theorem binding : s'.tables.binding? key =
    some { key, factory := .guarded key f, origin := .explicit source } :=
  h.binds.bound key (List.mem_singleton_self key)

theorem idle : s.inProgress = [] ∧ s'.inProgress = [] :=
  ⟨h.reachable.settled.idle, h.settled.idle⟩

/-- What the key gives: its factory runs once the key is entered, with any depth that is enough. -/
theorem getInstance_eq {depth : Nat} (hdepth : s'.depthFor (.guarded key f) ≤ depth + 1) :
    getInstance key s' =
      let r := callWithin (depth + 1) f { s' with inProgress := [key] }
      (r.1, { r.2 with inProgress := [] }) := by
  have hadmits : s'.Admits s'.knownKeys (.guarded key f) :=
    (h.settled.sound (List.Subset.refl _)).admits (State.mem_of_binding? h.binding).1
  rw [getInstance_bound h.binding, ← callWithin_eq_call h.settled hadmits hdepth]
  have hfree : cycleChain s'.inProgress key = none := by
    rw [h.idle.2]
    rfl
  refine (withGuard_entered hfree (callWithin (depth + 1) f)).trans ?_
  rw [h.idle.2]
  rfl

/-- Where its factory guards the key already, the key cannot be had. -/
theorem getInstance_circular (hkey : key ∈ f.guards) :
    ∃ chain, getInstance key s' = (.error (.error (.circularDependency chain)), s') := by
  have hrefused : ∃ chain, callWithin (s'.depthFor (.guarded key f) + 1) f
      { s' with inProgress := [key] } = (.error (.error (.circularDependency chain)), _) :=
    Factory.run_refused rfl hkey (List.mem_singleton_self key)
  obtain ⟨chain, hrun⟩ := hrefused
  refine ⟨chain, (h.getInstance_eq (Nat.le_succ _)).trans ?_⟩
  rw [hrun, ← h.idle.2]

/-- What a singleton gave, the key gives, unless the singleton guards the key already. -/
theorem getInstance_kept (hgot : s.Got f i) (hkept : f.kept?.isSome) (hkey : key ∉ f.guards) :
    getInstance key s' = (.ok i, s') := by
  obtain ⟨⟨cell, inner⟩, hkept⟩ := Option.isSome_iff_exists.mp hkept
  obtain ⟨hcell, hdistinct⟩ := hgot.kept hkept
  have hcell' : s'.cell? cell = some i := by
    rw [h.binds.rest]
    exact hcell
  obtain ⟨make, hserves⟩ := call_serves (s := s') (.guarded key f) hkept (State.lt_of_cell? hcell')
  obtain ⟨hsame, hresult⟩ := hserves.full i hcell'
  rw [getInstance_bound h.binding]
  refine Prod.ext (hresult ⟨List.nodup_cons.mpr ⟨hkey, hdistinct⟩, fun k _ => ?_⟩) hsame
  rw [h.idle.2]
  exact List.not_mem_nil

/-- The state in which the factory runs for the key is a shadow of the one before the registration. -/
theorem shadows : s.Shadows key [key] { s' with inProgress := [key] } := by
  have hbinding : Tables.binding? { s.tables with bindings := s'.tables.bindings } key = _ := h.binding
  refine ⟨s'.tables.bindings, s'.journal.log, ⟨fun k hk => ?_, .inl ?_⟩, ?_⟩
  · exact h.binds.others k (by simpa using hk)
  · simp only [Tables.isExplicit, hbinding, Origin.isExplicit]
  · refine (congrArg (fun u : State => { u with inProgress := [key] }) h.binds.rest).trans ?_
    simp only [State.shadow, h.idle.1, List.append_nil]

/-- If a call of its factory avoids the key, the key gives what the call gives. -/
theorem getInstance_avoided (hcall : f.call s = (.ok i, t)) (havoids : f.Avoids key s) :
    ∃ t', getInstance key s' = (.ok i, t') ∧ t.DiffersAt key t' := by
  -- Both calls go as the careful one does, which starts from the state before the registration.
  have hmirrors : ∀ {outer : List Key} {u : State} {depth : Nat}, (∀ k ∈ outer, k = key) →
      s.Shadows key outer u → s.depthFor f ≤ depth →
        FollowsAt (State.Shadows key outer) (callThrough (.avoiding key true) (s.depthFor f) f)
          (callWithin depth f) s u :=
    fun houter hu hdepth => callThrough_mirrors houter hdepth f _ _ hu havoids
  have hself : s.Shadows key [] s :=
    ⟨s.tables.bindings, s.journal.log, ⟨fun _ _ => rfl, .inr rfl⟩, rfl⟩
  have hdepth := Nat.le_max_left (s.depthFor f) (s'.depthFor (.guarded key f))
  have hdepth' := Nat.le_max_right (s.depthFor f) (s'.depthFor (.guarded key f))
  obtain ⟨hresult, hstate⟩ := hmirrors (by simp) hself (Nat.le_refl _)
  obtain ⟨hresult', hstate'⟩ := hmirrors (by simp) h.shadows (hdepth.trans (Nat.le_succ _))
  have hcalled : callWithin (s.depthFor f) f s = (.ok i, t) := hcall
  have hidle : t.inProgress = [] := by
    have hbalanced := (Growing.call f).balanced s
    rw [hcall] at hbalanced
    exact hbalanced.trans h.idle.1
  rw [hcalled] at hresult hstate
  refine ⟨_, (h.getInstance_eq (hdepth'.trans (Nat.le_succ _))).trans ?_,
    hstate.differsAt hstate' hidle⟩
  exact Prod.ext (hresult'.trans hresult.symm) rfl

end Rebound

/-- **Factories that are bound again.**  A factory that was handed out is bound to a key.  If it guards
the key already, the key cannot be had any more: a cycle is reported, though the factory is not
running, and nothing changes.  Otherwise the key gives what the factory gives:

* if a call of the factory before would have avoided the key, then the key gives what it would have
  given, and all that it would have done is done;
* if the factory keeps its instance, then the key gives the one that it gave, however long ago. -/
theorem Reachable.rebound_transparent {s s' : State} {held : List Factory} (h : Reachable s held)
    {f : Factory} (hf : f ∈ held) {key : Key} {source : String}
    (hbound : registerBinding key f source s = (.ok (), s')) :
    (key ∈ f.guards →
      ∃ chain, getInstance key s' = (.error (.error (.circularDependency chain)), s')) ∧
    (∀ i t, f.call s = (.ok i, t) → f.Avoids key s →
      ∃ t', getInstance key s' = (.ok i, t') ∧ t.DiffersAt key t') ∧
    (∀ i, s.Got f i → f.kept?.isSome → key ∉ f.guards → getInstance key s' = (.ok i, s')) :=
  have hrebound : Rebound s held f key source s' := ⟨h, hf, hbound⟩
  ⟨hrebound.getInstance_circular, fun _ _ => hrebound.getInstance_avoided,
    fun _ => hrebound.getInstance_kept⟩

end

def Construction.lamp : Construction :=
  { Construction.plain ⟨"Lamp"⟩ with scope := some TypePath.singletonMarker }

def Factory.lamp : Factory :=
  .guarded (.of ⟨"Lamp"⟩) (.once 0 (.construct (.of ⟨"Lamp"⟩) .lamp))

def Request.getLamp : List Request :=
  [.registerConstruction ⟨"Lamp"⟩ ⟨"Lamp"⟩, .getFactory (.of ⟨"Lamp"⟩)]

/-- The state in which the factory of the lamp has been handed out. -/
def State.lit : State :=
  State.after (.initial [(⟨"Lamp"⟩, .lamp)] {} []) Request.getLamp

theorem reachable_lit : Reachable .lit [.lamp] :=
  ((Reachable.initial [(⟨"Lamp"⟩, .lamp)] {} []).step (.registerConstruction ⟨"Lamp"⟩ ⟨"Lamp"⟩)
    trivial).step (.getFactory (.of ⟨"Lamp"⟩)) trivial

/-- The state in which the factory of the lamp is bound to a key then. -/
def State.relit (key : Key) : State :=
  (registerBinding key .lamp "again" .lit).2

/-- A spare name of the lamp gives what its factory gives; its own name is lost when it is bound to the
factory again. -/
theorem rebound_transparent_lamp :
    let own := Key.of ⟨"Lamp"⟩
    let spare := own.withName "spare"
    (∃ i t t', Factory.lamp.call .lit = (.ok i, t) ∧ getInstance spare (.relit spare) = (.ok i, t') ∧
      t.DiffersAt spare t') ∧
    ∃ chain, getInstance own (.relit own) =
      (.error (.error (.circularDependency chain)), .relit own) := by
  intro own spare
  have hmem := List.mem_singleton_self Factory.lamp
  have hspare : registerBinding spare .lamp "again" .lit = (.ok (), .relit spare) := rfl
  have hown : registerBinding own .lamp "again" .lit = (.ok (), .relit own) := rfl
  obtain ⟨i, t, hcall⟩ : ∃ i t, Factory.lamp.call .lit = (.ok i, t) := ⟨_, _, rfl⟩
  have havoids : Factory.lamp.Avoids spare .lit := by
    have hstop : stop? (Factory.lamp.callAvoiding spare true .lit).1 = none := by rfl
    unfold Factory.Avoids
    rw [hstop]
    simp
  obtain ⟨t', hgives, hdiffers⟩ :=
    (reachable_lit.rebound_transparent hmem hspare).2.1 i t hcall havoids
  exact ⟨⟨i, t, t', hcall, hgives, hdiffers⟩,
    (reachable_lit.rebound_transparent hmem hown).1 (by decide)⟩

/-- Not every factory that a key has gives under a key what a call of it has given that looks the key up
nowhere: a cycle is reported of a lamp, which depends on nothing. -/
theorem not_rebound_transparent :
    ¬ ∀ (s s' t : State) (held : List Factory) (f : Factory) (k key : Key) (source : String)
      (i : Instance), Reachable s held → getFactory k s = (.ok f, s) →
        registerBinding key f source s = (.ok (), s') → f.call s = (.ok i, t) →
          stop? (f.callAvoiding key false s).1 ≠ some .exhausted →
            ∃ j t', getInstance key s' = (.ok j, t') := by
  intro h
  have hstop : stop? (Factory.lamp.callAvoiding (.of ⟨"Lamp"⟩) false .lit).1 = none := by rfl
  have hfound : getFactory (.of ⟨"Lamp"⟩) .lit = (.ok .lamp, .lit) :=
    State.getFactory_bound (b := ⟨.of ⟨"Lamp"⟩, .lamp, .implicit⟩) rfl
  obtain ⟨j, t', hgives⟩ := h .lit (.relit (.of ⟨"Lamp"⟩)) _ [.lamp] .lamp (.of ⟨"Lamp"⟩)
    (.of ⟨"Lamp"⟩) "again" _ reachable_lit hfound rfl rfl (by rw [hstop]; simp)
  have hfails : stop? (getInstance (.of ⟨"Lamp"⟩) (.relit (.of ⟨"Lamp"⟩))).1 ≠ none := by
    decide +kernel
  rw [hgives] at hfails
  exact hfails rfl

end ComponentAssembly

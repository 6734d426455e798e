import ComponentAssembly.Proofs.Queries

/-!
# When a lookup redirects a dependency

A dependency is looked up at the first of its keys that is bound.  A lookup of another key leaves
bindings behind, and one of them may come before the binding that the dependency was looked up at:

    after a lookup the dependency has the same binding
      ↔ no key that it tries earlier has become bound

The binding that takes the place of the old one is always implicit (`Reachable.lookup_redirects`).
-/

namespace ComponentAssembly

open Assemble

/-- The keys under which a dependency is looked for before some key. -/
def InjectionPoint.before (p : InjectionPoint) (key : Key) : List Key :=
  p.candidates.takeWhile (· != key)

namespace State

variable {s t : State} {p : InjectionPoint} {b : Binding}

/-- The keys of a dependency are some that are unbound, that of its binding, and others. -/
theorem candidates_of_chosen? (h : s.chosen? p = some b) :
    s.tables.binding? b.key = some b ∧ (∀ key ∈ p.before b.key, s.tables.binding? key = none) ∧
      ∃ after, p.candidates = p.before b.key ++ b.key :: after := by
  obtain ⟨before, key, after, hcandidates, hb, hunbound⟩ := List.findSome?_eq_some_iff.mp h
  obtain rfl := (mem_of_binding? hb).2
  have hbefore : p.before b.key = before := by
    unfold InjectionPoint.before
    rw [hcandidates, List.takeWhile_append_of_pos fun key hkey => ?_]
    · simp
    · have hnone := hunbound key hkey
      simp only [bne_iff_ne, ne_eq]
      rintro rfl
      rw [hb] at hnone
      cases hnone
  rw [hbefore]
  exact ⟨hb, hunbound, after, hcandidates⟩

/-- A state that evolves looks a dependency up at the same binding, or at one that is new. -/
theorem Evolves.chosen? (h : s.Evolves t) (hb : s.chosen? p = some b) :
    (t.chosen? p = some b ∧ ∀ key ∈ p.before b.key, t.tables.binding? key = none) ∨
      ∃ b' ∈ t.chosen? p, b'.origin = .implicit ∧ b'.key ∈ p.before b.key ∧
        t.tables.binding? b'.key = some b' ∧ s.tables.binding? b'.key = none := by
  obtain ⟨hbound, hunbound, after, hcandidates⟩ := candidates_of_chosen? hb
  have hchosen : t.chosen? p = ((p.before b.key).findSome? t.tables.binding?).or (some b) := by
    unfold State.chosen?
    rw [hcandidates, List.findSome?_append, List.findSome?_cons, h.kept _ _ hbound]
  cases hnew : (p.before b.key).findSome? t.tables.binding? with
  | none =>
    rw [hnew] at hchosen
    exact .inl ⟨hchosen, List.findSome?_eq_none_iff.mp hnew⟩
  | some b' =>
    rw [hnew] at hchosen
    obtain ⟨key, hmem, hb'⟩ := List.exists_of_findSome?_eq_some hnew
    obtain rfl := (mem_of_binding? hb').2
    rcases h.added _ _ hb' with hold | ⟨-, himplicit⟩
    · rw [hunbound _ hmem] at hold
      cases hold
    · exact .inr ⟨b', hchosen, himplicit, hmem, hb', hunbound _ hmem⟩

/-- A state that evolves looks a dependency up as before exactly if no earlier key has become bound.
-/
theorem Evolves.chosen?_iff (h : s.Evolves t) (hb : s.chosen? p = some b) :
    t.chosen? p = some b ↔ ∀ key ∈ p.before b.key, t.tables.binding? key = none := by
  rcases h.chosen? hb with ⟨hsame, hunbound⟩ | ⟨b', hb', -, hmem, hbound, -⟩
  · exact ⟨fun _ => hunbound, fun _ => hsame⟩
  · constructor
    · intro hsame
      have heq : b' = b := Option.some.inj (hb'.symm.trans hsame)
      have hne := List.mem_takeWhile_imp hmem
      simp [heq] at hne
    · intro hunbound
      rw [hunbound _ hmem] at hbound
      cases hbound

/-- A lookup binds a key that is unbound: a construction is registered for its type, and no cycle
can be reached from it. -/
def WouldBind (s : State) (key : Key) : Prop :=
  ∃ maker, s.tables.construction? key.type = some maker ∧
    s.checkAcyclic key (s.declared maker) = .ok ()

/-- What a lookup of an unbound key does. -/
theorem Sound.getFactory_unbound {U : List Key} (h : s.Sound U) {key : Key} (hkey : key ∈ U)
    (hunbound : s.tables.binding? key = none) :
    (s.WouldBind key ∧ ∃ c f t, getFactory key s = (.ok f, t) ∧ s.Gains U key c f t) ∨
      ¬ s.WouldBind key ∧ ∃ cause, getFactory key s = (.error (.error cause), s) := by
  have hrun := State.getFactory_unbound hunbound
  cases hmaker : s.tables.construction? key.type with
  | none =>
    rw [hmaker] at hrun
    refine .inr ⟨?_, _, hrun⟩
    rintro ⟨maker, hsome, -⟩
    rw [hmaker] at hsome
    cases hsome
  | some maker =>
    rw [hmaker] at hrun
    rcases implicitFactory_spec h maker hunbound hkey with
      ⟨chain, hcheck, hfail⟩ | ⟨hcheck, f, t, hok, hgains⟩
    · refine .inr ⟨?_, _, hrun.trans hfail⟩
      rintro ⟨maker', hsome, hcheck'⟩
      obtain rfl := Option.some.inj (hmaker.symm.trans hsome)
      rw [hcheck] at hcheck'
      cases hcheck'
    · exact .inl ⟨⟨maker, hmaker, hcheck⟩, _, f, t, hrun.trans hok, hgains⟩

end State

/-- Where a key would be bound, a lookup binds it, whether the instance can be had or not. -/
theorem lookup_binds {s : State} {held : List Factory} (h : s.Settled held) {key : Key} {r : Request}
    (hr : r = .getFactory key ∨ r = .getInstance key) (hunbound : s.tables.binding? key = none)
    (hbind : s.WouldBind key) : ∃ b, (r.run s).2.tables.binding? key = some b := by
  have hs := h.sound (List.subset_append_left s.knownKeys [key])
  rcases hs.getFactory_unbound (by simp) hunbound with ⟨-, c, f, t, hok, hgains⟩ | ⟨hnot, -⟩
  · rcases hr with rfl | rfl
    · rw [Request.run_getFactory, hok]
      exact ⟨_, hgains.bound⟩
    · have hcall := call_leads (h.leads hgains.leads) hgains.leads.sound.known hgains.found.1
      have hrun : (Request.run (.getInstance key) s).2 = (f.call t).2 := by
        show ((getFactory key >>= fun f => f.call : Assemble Instance) s).2 = _
        simp [hok]
      rw [hrun]
      exact ⟨_, hcall.evolves.kept _ _ hgains.bound⟩
  · exact absurd hbind hnot

/-- **Redirection.**  After a lookup of a key, a dependency that had a binding is looked up at the
same one exactly if no key that it tries earlier has become bound; otherwise a new implicit binding
of such a key takes its place.  So it is if the key looked up is itself one of those and would be
bound, also where the lookup then fails; a lookup of the factory alone redirects in no other case. -/
theorem Reachable.lookup_redirects {s t : State} {held : List Factory} (h : Reachable s held)
    {key : Key} {r : Request} (hr : r = .getFactory key ∨ r = .getInstance key)
    (ht : (r.run s).2 = t) {p : InjectionPoint} {b : Binding} (hb : s.chosen? p = some b) :
    (t.chosen? p = some b ↔ ∀ other ∈ p.before b.key, t.tables.binding? other = none) ∧
      (t.chosen? p = some b → dependencyFactory p t = (.ok (some b.factory), t)) ∧
      (t.chosen? p ≠ some b → ∃ b', t.chosen? p = some b' ∧ b'.origin = .implicit ∧
        b'.key ∈ p.before b.key ∧ s.tables.binding? b'.key = none) ∧
      (key ∈ p.before b.key ∧ s.WouldBind key → t.chosen? p ≠ some b) ∧
      (r = .getFactory key → t.chosen? p ≠ some b → key ∈ p.before b.key ∧ s.WouldBind key) := by
  have hallowed : r.Allowed held := by rcases hr with rfl | rfl <;> trivial
  have hquery : r.isQuery := by rcases hr with rfl | rfl <;> rfl
  have hevolves : s.Evolves t := ht ▸ (query_leads h.settled hallowed hquery).evolves
  have hiff := hevolves.chosen?_iff hb
  obtain ⟨-, hunbound, -⟩ := State.candidates_of_chosen? hb
  refine ⟨hiff, State.dependencyFactory_chosen, fun hne => ?_, ?_, ?_⟩
  · rcases hevolves.chosen? hb with ⟨hsame, -⟩ | ⟨b', hb', himplicit, hmem, -, hnew⟩
    · exact absurd hsame hne
    · exact ⟨b', hb', himplicit, hmem, hnew⟩
  · rintro ⟨hmem, hbind⟩ hsame
    obtain ⟨b', hb'⟩ := lookup_binds h.settled hr (hunbound key hmem) hbind
    rw [ht, hiff.mp hsame key hmem] at hb'
    cases hb'
  · rintro rfl hne
    by_contra hcondition
    refine hne (hiff.mpr fun other hother => ?_)
    cases hkey : s.tables.binding? key with
    | some old =>
      rw [Request.run_getFactory, State.getFactory_bound hkey] at ht
      rw [← ht]
      exact hunbound other hother
    | none =>
      have hs := h.settled.sound (List.subset_append_left s.knownKeys [key])
      rcases hs.getFactory_unbound (by simp) hkey with ⟨hbind, c, f, u, hok, hgains⟩ | ⟨-, cause, hfail⟩
      · rw [Request.run_getFactory, hok] at ht
        rw [← ht, hgains.others other fun heq => hcondition ⟨heq ▸ hother, hbind⟩]
        exact hunbound other hother
      · rw [Request.run_getFactory, hfail] at ht
        rw [← ht]
        exact hunbound other hother

/-! ## A dependency with another name -/

namespace Aliased

def point : InjectionPoint :=
  { InjectionPoint.dependency "alpha" ⟨"Alpha"⟩ with aliases := ["x"] }

def bound : Instance :=
  .mk 0 (.component (.fresh { type := ⟨"Alpha"⟩, serial := 1 }))

def bindName : Request :=
  .registerBinding ((Key.of ⟨"Alpha"⟩).withName "x") (.constant bound) "bind_instance"

def registerType : Request :=
  .registerConstruction ⟨"Alpha"⟩ ⟨"Alpha"⟩

/-- The name is bound on request, and a construction is registered for the type. -/
def state : State :=
  (registerType.run (bindName.run (.initial [] {} [])).2).2

theorem reachable : ∃ held, Reachable state held :=
  ⟨_, ((Reachable.initial [] {} []).step bindName (.inr rfl)).step registerType trivial⟩

def named : Binding where
  key := (Key.of ⟨"Alpha"⟩).withName "x"
  factory := .guarded ((Key.of ⟨"Alpha"⟩).withName "x") (.constant bound)
  origin := .explicit "bind_instance"

/-- A lookup of the type puts an implicit binding in the place of the one of the name. -/
theorem lookup_redirects_point :
    state.chosen? point = some named ∧ state.WouldBind (.of ⟨"Alpha"⟩) ∧
      ∃ b, ((Request.getFactory (.of ⟨"Alpha"⟩)).run state).2.chosen? point = some b ∧
        b.origin = .implicit := by
  have hchosen : state.chosen? point = some named := rfl
  have hbind : state.WouldBind (.of ⟨"Alpha"⟩) := ⟨⟨"Alpha"⟩, rfl, rfl⟩
  obtain ⟨held, hreachable⟩ := reachable
  have hr : Request.getFactory (.of ⟨"Alpha"⟩) = .getFactory (.of ⟨"Alpha"⟩) ∨
      Request.getFactory (.of ⟨"Alpha"⟩) = .getInstance (.of ⟨"Alpha"⟩) := .inl rfl
  obtain ⟨-, -, himplicit, hredirected, -⟩ := hreachable.lookup_redirects hr rfl hchosen
  obtain ⟨b, hb, horigin, -⟩ := himplicit (hredirected ⟨by decide, hbind⟩)
  exact ⟨hchosen, hbind, b, hb, horigin⟩

/-- A lookup does redirect dependencies that are bound on request. -/
theorem not_lookup_keeps_choice :
    ¬ ∀ (s : State) (held : List Factory) (key : Key) (r : Request) (p : InjectionPoint) (b : Binding),
      Reachable s held → r = .getFactory key ∨ r = .getInstance key → s.chosen? p = some b →
        b.origin.isExplicit → (r.run s).2.chosen? p = some b := by
  intro hclaim
  obtain ⟨held, hreachable⟩ := reachable
  have hkept := hclaim state held (.of ⟨"Alpha"⟩) (.getFactory (.of ⟨"Alpha"⟩)) point named
    hreachable (.inl rfl) rfl rfl
  have hnew : (((Request.getFactory (.of ⟨"Alpha"⟩)).run state).2.chosen? point).map (·.origin) =
      some .implicit := rfl
  rw [hkept] at hnew
  cases hnew

end Aliased

end ComponentAssembly

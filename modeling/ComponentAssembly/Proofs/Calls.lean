import ComponentAssembly.Proofs.Lookups
import ComponentAssembly.Proofs.Steps
import Mathlib.Data.List.Dedup

/-!
# Calls enter a key and a cell at most once

A call is compared with one under a watch, which halts as soon as the keys in progress are not
distinct or more than a bound.  From a sound state the watch never halts (`callThrough_agrees`):

    U.dedup.length < depth + s.inProgress.length →
      AgreesAt (s.Leads U) (never exhausted)
        (callThrough (.watched bound) depth f) (callWithin depth' f) s

Each guard that is entered uses up one of the keys that are left, so the depth that is left always
exceeds their number; a cell is entered under the guard of its owner only, so it is never entered
again while it is filled.
-/

namespace ComponentAssembly

open Assemble

/-! ## Calls through a provider of choice -/

/-- Runs a factory with at most so many calls nested in each other, where `given` makes the provider
of a call from the calls one level down. -/
def callThrough (given : (Factory → Assemble Instance) → Provider) :
    Nat → Factory → Assemble Instance
  | 0, _ => throw .exhausted
  | depth + 1, f => f.run (given (callThrough given depth))

/-- Halts unless the keys in progress are distinct and no more than a bound. -/
def Assemble.watchDepth (bound : Nat) : Assemble Unit := do
  let keys := (← get).inProgress
  if keys.Nodup ∧ keys.length ≤ bound then return () else throw .exhausted

/-- The provider of an injector, with a watch each time that a key has come into progress. -/
def Provider.watched (bound : Nat) (call : Factory → Assemble Instance) : Provider :=
  { Provider.of call with
    enter := fun key step => withGuard key do
      watchDepth bound
      step }

theorem watchDepth_pass {bound : Nat} {s : State} (hdistinct : s.inProgress.Nodup)
    (hbound : s.inProgress.length ≤ bound) : watchDepth bound s = (.ok (), s) := by
  simp [watchDepth, hdistinct, hbound]

/-! ## Layers -/

section

variable {U : List Key} {E : Stop → Prop} {s : State}

/-- A guard agrees if it does where its key is not in progress yet. -/
theorem withGuard_agrees (hs : s.Sound U) {key : Key} {m n : Assemble Instance}
    (hcircular : key ∈ s.inProgress → ∀ chain, E (.error (.circularDependency chain)))
    (h : key ∉ s.inProgress → AgreesAt (State.Leads U { s with inProgress := s.inProgress ++ [key] })
      (StopsBy E) m n { s with inProgress := s.inProgress ++ [key] }) :
    AgreesAt (s.Leads U) (StopsBy E) (withGuard key m) (withGuard key n) s := by
  cases hchain : cycleChain s.inProgress key with
  | some chain =>
    refine ⟨?_, ?_, fun _ => ?_⟩
    · rw [withGuard_circular hchain]
      exact .refl hs
    · rw [withGuard_circular hchain]
      exact hcircular (cycleChain_eq_some hchain).1 chain
    · rw [withGuard_circular hchain, withGuard_circular hchain]
  | none =>
    obtain ⟨hkeeps, hresult, hsame⟩ := h (cycleChain_eq_none_iff.mp hchain)
    refine ⟨?_, ?_, fun hne => ?_⟩
    · rw [withGuard_entered hchain]
      exact hs.leave hkeeps
    · rw [withGuard_entered hchain]
      exact hresult
    · rw [withGuard_entered hchain] at hne
      rw [withGuard_entered hchain, withGuard_entered hchain, hsame hne]

/-- Filling a cell agrees if it is not being filled yet. -/
theorem whileFilling_agrees (hs : s.Sound U) {cell : Nat} {m n : Assemble Instance}
    (hfresh : cell ∉ s.filling)
    (h : AgreesAt (State.Leads U { s with filling := s.filling ++ [cell] }) (StopsBy E) m n
      { s with filling := s.filling ++ [cell] }) :
    AgreesAt (s.Leads U) (StopsBy E) (whileFilling cell m) (whileFilling cell n) s := by
  have hrun : ∀ m : Assemble Instance, whileFilling cell m s =
      let r := m { s with filling := s.filling ++ [cell] }
      (r.1, { r.2 with filling := r.2.filling.erase cell }) := by
    intro m
    show (if cell ∈ s.filling then _ else _) = _
    rw [if_neg hfresh]
  obtain ⟨hkeeps, hresult, hsame⟩ := h
  refine ⟨?_, ?_, fun hne => ?_⟩
  · rw [hrun]
    exact hs.endFilling hfresh hkeeps
  · rw [hrun]
    exact hresult
  · rw [hrun] at hne
    rw [hrun, hrun, hsame hne]

variable {p q : Provider}

theorem once_agrees (hs : s.Sound U) {cell : Nat} {inner : Factory} (hfresh : cell ∉ s.filling)
    (h : AgreesAt (State.Leads U { s with filling := s.filling ++ [cell] }) (StopsBy E)
      (inner.run p) (inner.run q) { s with filling := s.filling ++ [cell] }) :
    AgreesAt (s.Leads U) (StopsBy E) ((Factory.once cell inner).run p)
      ((Factory.once cell inner).run q) s := by
  refine .after (a := s) (t := s) rfl ?_
  cases s.cell? cell with
  | some i => exact Agrees.ok trivial s (.refl hs)
  | none =>
    refine whileFilling_agrees hs hfresh (h.andThen fun i _ => ?_)
    exact .andThen (.lift fun t ht => ht.trans (ht.sound.fillCell cell i)) fun _ _ => .ok trivial

theorem memo_agrees (hs : s.Sound U) {store : Nat} {key : Key} {inner : Factory}
    (h : AgreesAt (s.Leads U) (StopsBy E) (inner.run p) (inner.run q) s) :
    AgreesAt (s.Leads U) (StopsBy E) ((Factory.memo store key inner).run p)
      ((Factory.memo store key inner).run q) s := by
  refine .after (a := s) (t := s) rfl ?_
  cases s.stored? store key with
  | some i => exact Agrees.ok trivial s (.refl hs)
  | none =>
    refine h.andThen fun i _ => .read fun t ht => ?_
    cases t.stored? store key with
    | some earlier => exact Agrees.ok trivial t ht
    | none =>
      refine Agrees.andThen (.lift fun t ht => ?_) (fun _ _ => .ok trivial) t ht
      exact ht.trans (ht.sound.stored _)

end

/-! ## Running a factory -/

/-- The key of a guard has just come into progress: none of its cells is being filled. -/
def State.Entered (s : State) (guard : Option Key) : Prop :=
  ∀ key ∈ guard, key ∈ s.inProgress ∧ ∀ cell ∈ s.filling, s.owner? cell ≠ some key

section

variable {U : List Key} {bound depth : Nat} {p q : Provider}

/-- Where a key comes into progress that was not, its guard has just been entered. -/
theorem State.Sound.entered {s : State} (hs : s.Sound U) {key : Key} (hfresh : key ∉ s.inProgress) :
    State.Entered { s with inProgress := s.inProgress ++ [key] } (some key) := by
  intro other hother
  obtain rfl := Option.mem_some_iff.mp hother
  refine ⟨by simp, fun cell hcell howner => ?_⟩
  obtain ⟨owner, hmem, ho⟩ := hs.filling cell hcell
  have : owner = key := Option.some.inj (ho.symm.trans howner)
  exact hfresh (this ▸ hmem)

theorem State.Sound.length_le {s : State} (hs : s.Sound U) :
    s.inProgress.length ≤ U.dedup.length := by
  have hsub : s.inProgress ⊆ U.dedup := fun k hk => List.mem_dedup.mpr (hs.running hk)
  exact (hs.distinct.subperm hsub).length_le

/-- A factory agrees if what it asks for does, wherever more depth is left than there are keys not
in progress. -/
theorem run_agrees (hbound : U.dedup.length ≤ bound)
    (hp : p.enter = fun key step => withGuard key do
      watchDepth bound
      step)
    (hq : q.enter = withGuard)
    (hasks : ∀ s : State, s.Sound U → U.dedup.length < depth + s.inProgress.length →
      p.Alike (s.Leads U) (· ≠ .exhausted) (fun x => x.key ∈ U) (· ∈ U) q)
    (f : Factory) (guard : Option Key) (s : State) (hs : s.Sound U) (hkeys : f.keys ⊆ U)
    (htidy : f.Tidy s.owner? guard) (hentered : s.Entered guard)
    (hdepth : U.dedup.length ≤ depth + s.inProgress.length)
    (hroom : f.isGuarded ∨ U.dedup.length < depth + s.inProgress.length) :
    AgreesAt (s.Leads U) (StopsBy (· ≠ .exhausted)) (f.run p) (f.run q) s := by
  -- a program asks with one level less, for which there is room once its key is in progress
  have hcore : ∀ (f : Factory) (s : State), f.isCore → s.Sound U → f.keys ⊆ U →
      U.dedup.length < depth + s.inProgress.length →
      AgreesAt (s.Leads U) (StopsBy (· ≠ .exhausted)) (f.run p) (f.run q) s := by
    intro f s hcore hs hkeys hroom
    refine (hasks s hs hroom).run_core hcore (fun key hkey => hkeys hkey) ?_ s (.refl hs)
    rintro key c rfl x hx
    exact hkeys (List.mem_map.mpr ⟨x, hx, rfl⟩)
  induction f generalizing guard s with
  | guarded key inner ih =>
    obtain ⟨hkey, hinner⟩ := List.cons_subset.mp hkeys
    simp only [Factory.run, hp, hq]
    refine withGuard_agrees hs (fun _ chain => by simp) fun hfresh => ?_
    have hs' := hs.enter hfresh hkey
    have hwatch := watchDepth_pass hs'.distinct (hs'.length_le.trans hbound)
    have := ih (some key) _ hs' hinner htidy (hs.entered hfresh)
      (by simp only [List.length_append, List.length_singleton]; omega)
      (by simp only [List.length_append, List.length_singleton]; omega)
    refine ⟨?_, ?_, fun hne => ?_⟩
    · rw [bind_ok hwatch]
      exact this.keeps
    · rw [bind_ok hwatch]
      exact this.result
    · rw [bind_ok hwatch] at hne ⊢
      exact this.same hne
  | once cell inner _ =>
    obtain ⟨⟨key, hkey, howner⟩, hinner⟩ := htidy
    obtain ⟨hmem, hfresh⟩ := hentered key hkey
    have hroom := hroom.resolve_left (by simp [Factory.isGuarded])
    refine once_agrees hs (fun hcell => hfresh cell hcell howner) ?_
    exact hcore inner _ hinner (hs.beginFilling hmem howner) hkeys hroom
  | memo store key inner ih =>
    have hroom := hroom.resolve_left (by simp [Factory.isGuarded])
    exact memo_agrees hs (ih guard s hs hkeys htidy hentered hdepth (.inr hroom))
  | constant i => exact hcore _ s rfl hs hkeys (hroom.resolve_left (by simp [Factory.isGuarded]))
  | recipe r rewrap =>
    exact hcore _ s rfl hs hkeys (hroom.resolve_left (by simp [Factory.isGuarded]))
  | method key r => exact hcore _ s rfl hs hkeys (hroom.resolve_left (by simp [Factory.isGuarded]))
  | construct key c =>
    exact hcore _ s rfl hs hkeys (hroom.resolve_left (by simp [Factory.isGuarded]))

end

/-! ## What a factory asks for -/

section

variable {U : List Key} {E : Stop → Prop} {s : State} {call call' : Factory → Assemble Instance}

theorem downcast_agrees {I : State → Prop} (hE : ∀ cause, E (.error cause)) (i : Instance)
    (type : TypePath) (path : String) :
    Agrees I (StopsBy E) (ofExcept (i.downcast type path)) (ofExcept (i.downcast type path)) :=
  .ofExcept (fun _ _ => trivial) fun cause _ => hE cause

/-- A supplier agrees if calls do of the factories that it can find; `raw` says whether these may be
unguarded. -/
theorem pull_agrees (hE : ∀ cause, E (.error cause)) (hs : s.Sound U) (supplier : Supplier)
    (raw : Prop)
    (hraw : raw ∨ ∃ p, s.suppliers[supplier.id]? = some { lookup := .dependency p })
    (hcall : ∀ f t, s.Leads U t → t.Admits U f → f.isGuarded ∨ raw →
      AgreesAt (t.Leads U) (StopsBy E) (call f) (call' f) t) :
    AgreesAt (s.Leads U) (StopsBy E) (pull call supplier) (pull call' supplier) s := by
  have hfinish : ∀ f t, s.Leads U t → t.Admits U f → f.isGuarded ∨ raw →
      AgreesAt (s.Leads U) (StopsBy E)
        (do ofExcept ((← call f).downcast supplier.type supplier.key.text) : Assemble Instance)
        (do ofExcept ((← call' f).downcast supplier.type supplier.key.text) : Assemble Instance) t := by
    intro f t ht hadmits hf
    refine ((hcall f t ht hadmits hf).mono (fun u hu => ht.trans hu) fun _ h => h).andThen ?_
    exact fun i _ => downcast_agrees hE i _ _
  unfold pull
  refine .after (a := s) (t := s) rfl ?_
  cases hcell : s.suppliers[supplier.id]? with
  | none => exact Agrees.raise (hE _) s (.refl hs)
  | some cell =>
    have hmem := List.mem_of_getElem? hcell
    have hknown := (State.knownKeys_subset_iff.mp hs.known).2.2.2 cell hmem
    dsimp only
    cases hfactory : cell.factory with
    | some f =>
      have hf : f.isGuarded ∨ raw := by
        rcases hraw with hraw | ⟨p, hp⟩
        · exact .inr hraw
        · rw [hcell] at hp
          cases hp
          cases hfactory
      exact hfinish f s (.refl hs) ⟨hknown.2 f hfactory, hs.found cell hmem f hfactory⟩ hf
    | none =>
      have hfinds : State.Finds U s (fun f => f.isGuarded ∨ raw) (findFactory cell.lookup) := by
        rcases hraw with hraw | ⟨p, hp⟩
        · rcases State.findFactory_finds hs hknown.1 (hs.lookups cell hmem) with
            ⟨f, t, hok, ht, hadmits, -⟩ | hfail
          · exact .inl ⟨f, t, hok, ht, hadmits, .inr hraw⟩
          · exact .inr hfail
        · rw [hcell] at hp
          cases hp
          rcases State.findFactory_dependency hs (hknown.1 List.mem_cons_self) with
            ⟨f, t, hok, ht, hadmits, hf⟩ | hfail
          · exact .inl ⟨f, t, hok, ht, hadmits, .inl hf⟩
          · exact .inr hfail
      rcases hfinds with ⟨f, t, hok, ht, hadmits, hf⟩ | ⟨cause, t, hfail, ht⟩
      · have hfilled := ht.sound.fillSupplier supplier.id hadmits
        refine .after hok (.after (a := ()) rfl ?_)
        exact hfinish f _ (ht.trans hfilled) (hadmits.mono hfilled.evolves) hf
      · exact .stopped hfail ht (hE cause)

/-- The lookup of the substitutor agrees if calls of guarded factories do; no error gets out of it. -/
theorem substitutor_agrees (hE : ∀ cause, E (.error cause)) (hs : s.Sound U)
    (hcall : ∀ f, s.Admits U f → f.isGuarded →
      AgreesAt (s.Leads U) (StopsBy E) (call f) (call' f) s) :
    AgreesAt (s.Leads U) (StopsBy fun stop => stop = .exhausted ∧ E stop) (currentSubstitutor call)
      (currentSubstitutor call') s := by
  refine .after (a := s) (t := s) rfl ?_
  cases hf : s.factory? Substitutor.key with
  | none => exact Agrees.ok trivial s (.refl hs)
  | some f =>
    obtain ⟨b, hb, rfl⟩ := Option.map_eq_some_iff.mp hf
    have hmem := (State.mem_of_binding? hb).1
    have hstep := (hcall b.factory (hs.admits hmem) (hs.guarded b hmem)).andThen (R := fun _ => True)
      fun i _ => downcast_agrees hE i TypePath.substitutor Substitutor.name
    refine hstep.attempt.andThen fun r _ => ?_
    cases r with
    | ok i =>
      dsimp only
      split <;> exact .ok trivial
    | error cause =>
      refine .andThen (.lift fun t ht => ?_) fun _ _ => .ok trivial
      exact ht.trans (ht.sound.noted _ t.counters t.trials t.lookups)

/-- Evolution goes on through such steps. -/
theorem State.leads_lasting {points : InjectionPoint → Prop} (hpoints : ∀ x, points x → x.key ∈ U) :
    Lasting (s.Leads U) points where
  journal t journal ht := ht.trans (ht.sound.noted journal t.counters t.trials t.lookups)
  trials t trials ht := ht.trans (ht.sound.noted t.journal t.counters trials t.lookups)
  counters t counters ht := ht.trans (ht.sound.noted t.journal counters t.trials t.lookups)
  supplier := by
    intro t lookup ht hlookup
    refine ht.trans (ht.sound.newSupplier lookup ?_ ?_)
    · rcases hlookup with hlookup | ⟨key, i, rfl⟩
      · cases lookup with
        | dependency p => exact List.cons_subset.mpr ⟨hpoints p hlookup, List.nil_subset _⟩
        | resolved _ _ => cases hlookup
        | numbered _ _ _ _ => cases hlookup
      · exact List.nil_subset _
    · rcases hlookup with hlookup | ⟨key, i, rfl⟩
      · cases lookup with
        | dependency p => intro f hf; cases hf
        | resolved _ _ => cases hlookup
        | numbered _ _ _ _ => cases hlookup
      · intro f hf
        cases hf
        trivial

/-- What factories ask an injector for agrees if calls of guarded factories do. -/
theorem asks_agree (hE : ∀ cause, E (.error cause))
    (hcall : ∀ f t, s.Leads U t → t.Admits U f → f.isGuarded →
      AgreesAt (t.Leads U) (StopsBy E) (call f) (call' f) t) :
    (Provider.of call).Alike (s.Leads U) E (fun x => x.key ∈ U) (· ∈ U) (Provider.of call') where
  toLasting := State.leads_lasting fun _ hx => hx
  plain cause _ := hE cause
  substitutor := by
    intro t ht
    have hcall' := fun f hadmits hf => hcall f t ht hadmits hf
    refine (substitutor_agrees hE ht.sound hcall').mono (fun u hu => ht.trans hu) fun r hr => ?_
    exact hr.mono (fun _ h => h) fun _ he => he.2
  supply := by
    intro x hx _ t ht
    rcases State.dependencyFactory_spec ht.sound hx with
      ⟨f, u, hok, hu, hadmits, hf⟩ | hnone | ⟨cause, hfail⟩
    · refine .after hok (.andThen (P := fun _ => True) ?_ fun i _ => .ok trivial)
      exact (hcall f u (ht.trans hu) hadmits hf).mono (fun v hv => (ht.trans hu).trans hv) fun _ h => h
    · exact .after hnone (Agrees.ok trivial t ht)
    · exact .stopped hfail ht (hE cause)
  ask := by
    intro key hkey t ht
    rcases State.getFactory_finds ht.sound key hkey with
      ⟨f, u, hok, hu, hadmits, hf⟩ | ⟨cause, u, hfail, hu⟩
    · refine .after hok ?_
      exact (hcall f u (ht.trans hu) hadmits hf).mono (fun v hv => (ht.trans hu).trans hv) fun _ h => h
    · exact .stopped hfail (ht.trans hu) (hE cause)
  draw := by
    intro x type hx t ht
    have hnew := ht.trans (ht.sound.newSupplier (.dependency x)
      (List.cons_subset.mpr ⟨hx, List.nil_subset _⟩) fun f hf => by cases hf)
    have hmade : (liftM (State.newSupplier (.dependency x) type) : Assemble Supplier) t =
        (.ok { id := t.suppliers.length, key := x.key, type },
          { t with suppliers := t.suppliers ++ [{ lookup := .dependency x }] }) := rfl
    refine .after hmade ?_
    refine (pull_agrees hE hnew.sound _ False (.inr ⟨x, by simp⟩) ?_).mono
      (fun u hu => hnew.trans hu) fun _ h => h
    intro f u hu hadmits hf
    exact hcall f u (hnew.trans hu) hadmits (hf.resolve_right id)

end

/-! ## Calls -/

section

variable {U : List Key} {bound : Nat}

/-- The watch does not change what is asked for. -/
theorem Provider.Alike.watched {I : State → Prop} {E : Stop → Prop} {points : InjectionPoint → Prop}
    {keys : Key → Prop} {call : Factory → Assemble Instance} {q : Provider}
    (h : (Provider.of call).Alike I E points keys q) :
    (Provider.watched bound call).Alike I E points keys q :=
  ⟨h.toLasting, h.plain, h.substitutor, h.supply, h.ask, h.draw⟩

/-- **Calls.**  With more depth than there are keys left, a call of a guarded factory is not
exhausted, the watch does not change it, nor does more depth.  One level more is enough for any
factory. -/
theorem callThrough_agrees (hbound : U.dedup.length ≤ bound) (depth : Nat) :
    ∀ (depth' : Nat) (f : Factory) (s : State), depth ≤ depth' → s.Sound U → s.Admits U f →
      U.dedup.length < depth + s.inProgress.length →
      (f.isGuarded ∨ U.dedup.length + 1 < depth + s.inProgress.length) →
      AgreesAt (s.Leads U) (StopsBy (· ≠ .exhausted))
        (callThrough (.watched bound) depth f) (callWithin depth' f) s := by
  induction depth with
  | zero =>
    intro _ _ s _ hs _ hdepth _
    have := hs.length_le
    omega
  | succ depth ih =>
    intro depth' f s hle hs hadmits hdepth hroom
    obtain ⟨depth', rfl⟩ : ∃ n, depth' = n + 1 := ⟨depth' - 1, by omega⟩
    have hasks : ∀ s : State, s.Sound U → U.dedup.length < depth + s.inProgress.length →
        (Provider.watched bound (callThrough (.watched bound) depth)).Alike (s.Leads U)
          (· ≠ .exhausted) (fun x => x.key ∈ U) (· ∈ U) (Provider.of (callWithin depth')) := by
      intro s _ hdepth
      refine (asks_agree (fun cause => by simp) fun f t ht hadmits hf => ?_).watched
      refine ih depth' f t (by omega) ht.sound hadmits ?_ (.inl hf)
      rw [ht.evolves.inProgress]
      exact hdepth
    refine run_agrees hbound rfl rfl hasks f none s hs hadmits.keys hadmits.tidy ?_ (by omega) ?_
    · intro key hkey
      cases hkey
    · rcases hroom with hf | hroom
      · exact .inl hf
      · exact .inr (by omega)

end

end ComponentAssembly

import ComponentAssembly.Proofs.Growth

/-!
# Runs from related states

Steps that ask for nothing go the same way from related states (`Step.follows`), if the relation is
about other things than such steps look at (`Alongside`).  So do programs whose questions are answered
alike (`Program.mirrors`), and factories (`Factory.run_mirrors`).  One of two runs may be a careful one
that halts where the other goes on (`Mirrors`).

One such relation is that of a state to its shadow (`State.Shadows key outer s t`), which differs by
these only:

    bindings      of one key, which may have come to be bound on request
    inProgress    some more calls are around
    log           anything
-/

namespace ComponentAssembly

open Assemble Stoppable

/-! ## Steps that follow others -/

section

variable {α β : Type} {R : State → State → Prop} {s t : State}

/-- At two states, one step gives what another does, and both lead to related states. -/
structure FollowsAt (R : State → State → Prop) (m n : StateM State α) (s t : State) : Prop where
  result : (n t).1 = (m s).1
  state : R (m s).2 (n t).2

/-- A step follows another from all related states. -/
def Follows (R : State → State → Prop) (m n : StateM State α) : Prop :=
  ∀ s t, R s t → FollowsAt R m n s t

/-- At two states, a step follows a careful one unless this is exhausted. -/
def MirrorsAt [Stoppable α] (R : State → State → Prop) (m n : StateM State α) (s t : State) : Prop :=
  stop? (m s).1 ≠ some .exhausted → FollowsAt R m n s t

/-- A step follows a careful one from all related states, unless this is exhausted. -/
def Mirrors [Stoppable α] (R : State → State → Prop) (m n : StateM State α) : Prop :=
  ∀ s t, R s t → MirrorsAt R m n s t

namespace FollowsAt

theorem pure {a : α} (h : R s t) : FollowsAt R (Pure.pure a) (Pure.pure a) s t :=
  ⟨rfl, h⟩

theorem bind {m n : StateM State α} {f g : α → StateM State β} (h : FollowsAt R m n s t)
    (hf : FollowsAt R (f (m s).1) (g (m s).1) (m s).2 (n t).2) :
    FollowsAt R (m >>= f) (n >>= g) s t := by
  refine ⟨?_, ?_⟩
  · show (g (n t).1 (n t).2).1 = _
    rw [h.result]
    exact hf.result
  · show R _ (g (n t).1 (n t).2).2
    rw [h.result]
    exact hf.state

theorem andThen {m n : Assemble α} {f g : α → Assemble β} (h : FollowsAt R m n s t)
    (hf : ∀ a, Follows R (f a) (g a)) :
    FollowsAt R (m >>= f : Assemble β) (n >>= g : Assemble β) s t := by
  refine bind (f := ExceptT.bindCont f) (g := ExceptT.bindCont g) h ?_
  cases (m s).1 with
  | ok a => exact hf a _ _ h.state
  | error stop => exact pure h.state

theorem map {m n : Assemble α} (h : FollowsAt R m n s t) (f : α → β) :
    FollowsAt R (f <$> m : Assemble β) (f <$> n : Assemble β) s t :=
  andThen (f := fun a => (Pure.pure (f a) : Assemble β)) (g := fun a => Pure.pure (f a)) h
    fun _ _ _ h => ⟨rfl, h⟩

theorem of_same {m m' n n' : StateM State α} {s' t' : State} (h : FollowsAt R m' n' s' t')
    (hm : m s = m' s') (hn : n t = n' t') : FollowsAt R m n s t :=
  ⟨by rw [hm, hn]; exact h.result, by rw [hm, hn]; exact h.state⟩

/-- Steps between two changes of the state each. -/
theorem framed {m m' n n' : StateM State α} {s' t' : State} (leave leave' : State → State)
    (h : FollowsAt R m' n' s' t') (hm : m s = ((m' s').1, leave (m' s').2))
    (hn : n t = ((n' t').1, leave' (n' t').2)) (hleave : ∀ u v, R u v → R (leave u) (leave' v)) :
    FollowsAt R m n s t :=
  ⟨by rw [hm, hn]; exact h.result, by rw [hm, hn]; exact hleave _ _ h.state⟩

theorem elim {m n : StateM State α} {a : α} {s' : State} (h : FollowsAt R m n s t)
    (hm : m s = (a, s')) : ∃ t', n t = (a, t') ∧ R s' t' := by
  obtain ⟨hresult, hstate⟩ := h
  rw [hm] at hresult hstate
  exact ⟨(n t).2, Prod.ext hresult rfl, hstate⟩

/-- What both steps are known to do. -/
theorem of_eq {m n : StateM State α} {a : α} {s' t' : State} (hm : m s = (a, s'))
    (hn : n t = (a, t')) (h : R s' t') : FollowsAt R m n s t :=
  ⟨by rw [hm, hn], by rw [hm, hn]; exact h⟩

end FollowsAt

namespace Follows

theorem pure (a : α) : Follows R (Pure.pure a) (Pure.pure a) :=
  fun _ _ h => .pure h

theorem lift {m n : StateM State α} (h : Follows R m n) :
    Follows R (ExceptT.lift m : Assemble α) (ExceptT.lift n : Assemble α) :=
  fun s t hst => ⟨congrArg Except.ok (h s t hst).result, (h s t hst).state⟩

theorem ofExcept (result : Except AssemblyError α) :
    Follows R (Assemble.ofExcept result) (Assemble.ofExcept result) := by
  cases result <;> exact fun _ _ h => ⟨rfl, h⟩

theorem mirrors [Stoppable α] {m n : StateM State α} (h : Follows R m n) : Mirrors R m n :=
  fun s t hst _ => h s t hst

end Follows

namespace MirrorsAt

theorem of_same [Stoppable α] {m m' n n' : StateM State α} {s' t' : State}
    (h : MirrorsAt R m' n' s' t') (hm : m s = m' s') (hn : n t = n' t') : MirrorsAt R m n s t :=
  fun hne => (h (hm ▸ hne)).of_same hm hn

/-- A first step after whose exhaustion the next step gives up. -/
theorem bind [Stoppable α] [Stoppable β] {m n : StateM State α} {f g : α → StateM State β}
    (h : MirrorsAt R m n s t) (hf : ∀ s' t', R s' t' → MirrorsAt R (f (m s).1) (g (m s).1) s' t')
    (hstop : ∀ a s, stop? a = some .exhausted → stop? (f a s).1 = some .exhausted) :
    MirrorsAt R (m >>= f) (n >>= g) s t := by
  intro hne
  have hfirst := h fun hex => hne (hstop _ _ hex)
  exact hfirst.bind (hf _ _ hfirst.state hne)

theorem andThen {m n : Assemble α} {f g : α → Assemble β} (h : MirrorsAt R m n s t)
    (hf : ∀ a, Mirrors R (f a) (g a)) :
    MirrorsAt R (m >>= f : Assemble β) (n >>= g : Assemble β) s t := by
  refine bind (f := ExceptT.bindCont f) (g := ExceptT.bindCont g) h ?_ ?_
  · cases (m s).1 with
    | ok a => exact fun s' t' h' => hf a s' t' h'
    | error stop => exact fun _ _ h' _ => .pure h'
  · intro a s hstop
    cases a with
    | ok a => cases hstop
    | error stop => exact hstop

/-- A first step that is followed whatever it gives. -/
theorem after [Stoppable β] {m n : StateM State α} {f g : α → StateM State β}
    (h : FollowsAt R m n s t)
    (hf : ∀ s' t', R s' t' → MirrorsAt R (f (m s).1) (g (m s).1) s' t') :
    MirrorsAt R (m >>= f) (n >>= g) s t :=
  fun hne => h.bind (hf _ _ h.state hne)

theorem found {m n : Assemble α} {f g : α → Assemble β} (h : FollowsAt R m n s t)
    (hf : ∀ a, Mirrors R (f a) (g a)) :
    MirrorsAt R (m >>= f : Assemble β) (n >>= g : Assemble β) s t :=
  andThen (fun _ => h) hf

/-- A first step that reads the state. -/
theorem read {f g : State → Assemble β} (h : MirrorsAt R (f s) (g t) s t) :
    MirrorsAt R (get >>= f : Assemble β) (get >>= g : Assemble β) s t :=
  fun hne => (h hne).of_same rfl rfl

/-- A step each error of which becomes a result. -/
theorem attempt {m n : Assemble α} (h : MirrorsAt R m n s t) :
    MirrorsAt R (Assemble.attempt m) (Assemble.attempt n) s t := by
  refine bind h (fun s' t' h' _ => ?_) ?_
  · match (m s).1 with
    | .ok a => exact .pure h'
    | .error (.error cause) => exact .pure h'
    | .error .exhausted => exact .pure h'
  · intro r s hstop
    match r, hstop with
    | .error .exhausted, _ => rfl

end MirrorsAt

end

/-! ## Steps that ask for nothing -/

section

variable {R : State → State → Prop}

/-- Related states are set up the same and keep the same instances, and steps that ask for nothing
follow themselves from them. -/
structure Alongside (R : State → State → Prop) : Prop where
  setting : ∀ s t, R s t → s.SameSetting t
  kept : ∀ s t, R s t → t.cells = s.cells ∧ t.filling = s.filling ∧ t.stores = s.stores
  cells : ∀ s t (change : List Cell → List Cell), R s t →
    R { s with cells := change s.cells } { t with cells := change t.cells }
  filling : ∀ s t (change : List Nat → List Nat), R s t →
    R { s with filling := change s.filling } { t with filling := change t.filling }
  stores : ∀ s t (change : List (List (Key × Instance)) → List (List (Key × Instance))), R s t →
    R { s with stores := change s.stores } { t with stores := change t.stores }
  journal : ∀ {α : Type} {step : StateM Journal α}, Journal.Blind step →
    Follows R (State.onJournal step) (State.onJournal step)
  trial : ∀ owner message, Follows R (State.nextTrial owner message) (State.nextTrial owner message)
  number : ∀ name, Follows R (State.nextNumber name) (State.nextNumber name)
  supplier : ∀ lookup type, Follows R (State.newSupplier lookup type) (State.newSupplier lookup type)

/-- Steps that ask for nothing go the same way from related states. -/
theorem Step.follows (hR : Alongside R) {α : Type} {Q : α → Prop} {m : StateM State α}
    (hm : Step .free Q m) : Follows R m m := by
  induction hm with
  | pure h => exact .pure _
  | bind hm _ ih ihf =>
    intro s t hst
    have hfirst := ih s t hst
    exact hfirst.bind (ihf _ (hm.keeps s.grows_keeps s (.refl s)).2 _ _ hfirst.state)
  | journal hquiet _ => exact hR.journal hquiet.blind
  | failure _ path message => exact hR.journal (.report _ path message)
  | note _ => exact hR.journal (.note _)
  | component type => exact hR.journal (.newComponent type)
  | trial owner message => exact hR.trial owner message
  | number name => exact hR.number name
  | supplier type _ => exact hR.supplier _ type

/-- Whatever a provider answers, a program has results of its kind. -/
theorem Program.ends {α : Type} [Stoppable α] {Q : α → Prop} {m : Provider → StateM State α}
    (hm : Program .free Q m) (p : Provider) (s : State) : Q (m p s).1 := by
  have hlasting : Lasting (fun _ => True) Remit.free.points :=
    ⟨fun _ _ _ => trivial, fun _ _ _ => trivial, fun _ _ _ => trivial, fun _ _ _ _ => trivial⟩
  have hkeeps := hlasting.keeps (r := .free) (fun _ _ => trivial) fun _ => trivial
  refine (Program.keeps hkeeps (.answers (p := p) (fun _ => trivial) ?_ ?_ ?_ ?_) hm s trivial).2
  · exact fun _ _ => trivial
  · exact fun _ _ _ => trivial
  · exact fun _ _ _ => trivial
  · exact fun _ _ _ _ => trivial

/-- The answers of a provider follow those of a careful one. -/
structure Provider.MirroredBy (R : State → State → Prop) (p q : Provider) : Prop where
  substitutor : Mirrors R p.substitutor q.substitutor
  supply : ∀ x, Mirrors R (p.supply x) (q.supply x)
  ask : ∀ k, Mirrors R (p.ask k) (q.ask k)
  draw : ∀ x type, Mirrors R (p.draw (.dependency x) type)
    (q.draw (.dependency x) type)
  enter : ∀ k (m n : Assemble Instance), Mirrors R m n →
    Mirrors R (p.enter k m) (q.enter k n)

/-- Programs go the same way from related states, as long as the answers to their questions do. -/
theorem Program.mirrors (hR : Alongside R) {p q : Provider} (hp : p.MirroredBy R q) {α : Type}
    [inst : Stoppable α] {Q : α → Prop} {m : Provider → StateM State α} (hm : Program .free Q m) :
    Mirrors R (m p) (m q) := by
  induction hm with
  | pure _ => exact fun _ _ h _ => .pure h
  | bind hm _ hstop ih ihf =>
    exact fun s t hst => (ih s t hst).bind (ihf _ (hm.ends p s)) (hstop p)
  | after hstep _ ihf =>
    intro s t hst
    exact .after (hstep.follows hR s t hst) (ihf _ (hstep.keeps s.grows_keeps s (.refl s)).2)
  | @look _ _ _ f hsame _ ihf =>
    intro s t hst hne
    have hrest := ihf s trivial s t hst hne
    exact hrest.of_same rfl (congrFun (hsame q s t (hR.setting s t hst)) t)
  | substitutor => exact hp.substitutor
  | supply _ _ => exact hp.supply _
  | ask _ => exact hp.ask _
  | draw _ type => exact hp.draw _ type

/-! ## Layers -/

/-- What a cell keeps is the same in related states, and so is whether it is being filled. -/
theorem Mirrors.keepIn (hR : Alongside R) {m n : Assemble Instance} {cell : Nat} (h : Mirrors R m n) :
    Mirrors R (Assemble.keepIn cell m) (Assemble.keepIn cell n) := by
  intro s t hst hne
  obtain ⟨hcells, hfilling, -⟩ := hR.kept s t hst
  have hcell' : t.cell? cell = s.cell? cell := by simp only [State.cell?, hcells]
  cases hcell : s.cell? cell with
  | some i => exact .of_eq (keepIn_full hcell) (keepIn_full (hcell'.trans hcell)) hst
  | none =>
    by_cases hbusy : cell ∈ s.filling
    · rw [keepIn_busy hcell hbusy] at hne
      exact absurd rfl hne
    · have hfill : ∀ i, Follows R (do State.fillCell cell i; return i : Assemble Instance)
          (do State.fillCell cell i; return i : Assemble Instance) := fun i s t hst =>
        ⟨rfl, hR.cells s t (·.modify cell fun c => { c with kept := some i }) hst⟩
      rw [keepIn_empty hcell hbusy] at hne
      have hentered := hR.filling s t (· ++ [cell]) hst
      refine (MirrorsAt.andThen (h _ _ hentered) (fun i => (hfill i).mirrors) hne).framed
        (fun u => { u with filling := u.filling.erase cell })
        (fun u => { u with filling := u.filling.erase cell })
        (keepIn_empty hcell hbusy) (keepIn_empty (hcell'.trans hcell) (hfilling ▸ hbusy)) ?_
      exact fun u v huv => hR.filling u v (·.erase cell) huv

/-- What a store keeps is the same in related states. -/
theorem Mirrors.keepBy (hR : Alongside R) {m n : Assemble Instance} {store : Nat} {k : Key}
    (h : Mirrors R m n) : Mirrors R (Assemble.keepBy store k m) (Assemble.keepBy store k n) := by
  have hstored : ∀ {s t : State}, R s t → t.stored? store k = s.stored? store k := by
    intro s t hst
    simp only [State.stored?, (hR.kept s t hst).2.2]
  intro s t hst
  refine .read ?_
  rw [hstored hst]
  cases s.stored? store k with
  | some i => exact fun _ => .of_eq rfl rfl hst
  | none =>
    refine (h s t hst).andThen fun i s t hst => .read ?_
    rw [hstored hst]
    cases s.stored? store k with
    | some earlier => exact fun _ => .of_eq rfl rfl hst
    | none => exact fun _ => ⟨rfl, hR.stores s t (·.modify store (· ++ [(k, i)])) hst⟩

/-- A key is refused or entered alike in related states, if it is around in both or in neither. -/
theorem Mirrors.guarded {m n : Assemble Instance} {k : Key}
    (hchain : ∀ s t, R s t → cycleChain t.inProgress k = cycleChain s.inProgress k)
    (henter : ∀ s t, R s t → R { s with inProgress := s.inProgress ++ [k] }
      { t with inProgress := t.inProgress ++ [k] })
    (hleave : ∀ s t u v, R s t → R u v →
      R { u with inProgress := u.inProgress.take s.inProgress.length }
        { v with inProgress := v.inProgress.take t.inProgress.length })
    (h : Mirrors R m n) : Mirrors R (withGuard k m) (withGuard k n) := by
  intro s t hst hne
  have hchain' := hchain s t hst
  cases hfree : cycleChain s.inProgress k with
  | some chain =>
    rw [hfree] at hchain'
    exact .of_eq (withGuard_circular hfree m) (withGuard_circular hchain' n) hst
  | none =>
    rw [hfree] at hchain'
    rw [withGuard_entered hfree] at hne
    exact (h _ _ (henter s t hst) hne).framed
      (fun u => { u with inProgress := u.inProgress.take s.inProgress.length })
      (fun u => { u with inProgress := u.inProgress.take t.inProgress.length })
      (withGuard_entered hfree m) (withGuard_entered hchain' n) fun u v => hleave s t u v hst

/-- **Factories.**  A factory goes the same way from related states, as long as the answers to its
questions do. -/
theorem Factory.run_mirrors (hR : Alongside R) {p q : Provider} (hp : p.MirroredBy R q)
    (f : Factory) : Mirrors R (f.run p) (f.run q) := by
  have hcore : ∀ f : Factory, f.isCore → Mirrors R (f.run p) (f.run q) := fun f hf =>
    Program.mirrors hR hp (Program.run_core hf (fun _ _ => trivial) fun _ _ _ _ _ => trivial)
  induction f with
  | guarded k inner ih => exact hp.enter k _ _ ih
  | once cell inner ih => exact ih.keepIn hR
  | memo store k inner ih => exact ih.keepBy hR
  | constant i => exact hcore _ rfl
  | recipe r rewrap => exact hcore _ rfl
  | method k r => exact hcore _ rfl
  | construct k c => exact hcore _ rfl

/-! ## Answers of an injector -/

section

variable {call call' : Factory → Assemble Instance} (hcall : ∀ f, Mirrors R (call f) (call' f))
  {s t : State}
include hcall

/-- The substitutor that is bound. -/
theorem Alongside.substitutor (hR : Alongside R) (h : R s t)
    (hfactory : t.factory? Substitutor.key = s.factory? Substitutor.key) :
    MirrorsAt R (currentSubstitutor call) (currentSubstitutor call') s t := by
  refine .read ?_
  rw [hfactory]
  cases s.factory? Substitutor.key with
  | none => exact fun _ => ⟨rfl, h⟩
  | some f =>
    have hcast := (hcall f s t h).andThen fun i =>
      (Follows.ofExcept (i.downcast TypePath.substitutor Substitutor.name)).mirrors
    refine hcast.attempt.andThen fun r s t h => ?_
    cases r with
    | ok i =>
      dsimp only
      split <;> exact fun _ => ⟨rfl, h⟩
    | error cause =>
      refine .found ((hR.journal (.write _)).lift s t h) fun _ s t h _ => ⟨rfl, h⟩

/-- A dependency whose lookup goes the same way. -/
theorem FollowsAt.supply {p : InjectionPoint}
    (h : FollowsAt R (dependencyFactory p) (dependencyFactory p) s t) :
    MirrorsAt R ((Provider.of call).supply p) ((Provider.of call').supply p) s t := by
  refine .found h fun found => ?_
  cases found with
  | none => exact (Follows.pure _).mirrors
  | some f => exact fun s t h => (hcall f s t h).andThen fun i => (Follows.pure _).mirrors

/-- A supplier that gets its factory in the same way. -/
theorem FollowsAt.pull {supplier : Supplier}
    (h : FollowsAt R (factoryOf supplier) (factoryOf supplier) s t) :
    MirrorsAt R (Assemble.pull call supplier) (Assemble.pull call' supplier) s t := by
  rw [pull_eq, pull_eq]
  refine .found h fun f s t h => ?_
  exact (hcall f s t h).andThen fun i => (Follows.ofExcept _).mirrors

end

end

/-! ## Shadows -/

/-- Tables whose bindings are those of other tables but for one key, which may have come to be bound on
request. -/
structure Tables.AgreesBut (key : Key) (t u : Tables) : Prop where
  others : ∀ k, k ≠ key → u.binding? k = t.binding? k
  requested : u.isExplicit key = true ∨ u.isExplicit key = t.isExplicit key

namespace State

/-- A state amid more keys in progress, with other bindings and another log. -/
def shadow (s : State) (outer : List Key) (bindings : List Binding) (log : List LogRecord) : State :=
  { s with
    tables := { s.tables with bindings }
    inProgress := outer ++ s.inProgress
    journal := { s.journal with log } }

/-- One state differs from another by the binding of a key, by keys in progress, and by its log. -/
def Shadows (key : Key) (outer : List Key) (s t : State) : Prop :=
  ∃ bindings log, s.tables.AgreesBut key { s.tables with bindings } ∧ t = s.shadow outer bindings log

end State

section

variable {key : Key} {outer : List Key} {s t : State}

namespace State.Shadows

theorem sameSetting (h : s.Shadows key outer t) : s.SameSetting t := by
  obtain ⟨bindings, log, -, rfl⟩ := h
  exact ⟨rfl, rfl, rfl, rfl, rfl⟩

theorem binding? (h : s.Shadows key outer t) {k : Key} (hk : k ≠ key) :
    t.tables.binding? k = s.tables.binding? k := by
  obtain ⟨bindings, log, hbut, rfl⟩ := h
  exact hbut.others k hk

/-- A step that does not look at the log. -/
theorem journal {α : Type} {step : StateM Journal α} (hstep : Journal.Blind step) :
    Follows (State.Shadows key outer) (State.onJournal step) (State.onJournal step) := by
  rintro s t ⟨bindings, log, hbut, rfl⟩
  obtain ⟨log', hrun⟩ := hstep s.journal log
  have hshadow : State.onJournal step (s.shadow outer bindings log) =
      ((State.onJournal step s).1, (State.onJournal step s).2.shadow outer bindings log') := by
    show ((step { s.journal with log }).1,
      { s.shadow outer bindings log with journal := (step { s.journal with log }).2 }) = _
    rw [hrun]
    rfl
  exact .of_eq rfl hshadow ⟨bindings, log', hbut, rfl⟩

/-- Steps that ask for nothing go the same way in a shadow. -/
theorem alongside (key : Key) (outer : List Key) : Alongside (State.Shadows key outer) where
  setting _ _ h := h.sameSetting
  kept := by
    rintro s t ⟨bindings, log, -, rfl⟩
    exact ⟨rfl, rfl, rfl⟩
  cells := by
    rintro s t change ⟨bindings, log, hbut, rfl⟩
    exact ⟨bindings, log, hbut, rfl⟩
  filling := by
    rintro s t change ⟨bindings, log, hbut, rfl⟩
    exact ⟨bindings, log, hbut, rfl⟩
  stores := by
    rintro s t change ⟨bindings, log, hbut, rfl⟩
    exact ⟨bindings, log, hbut, rfl⟩
  journal := journal
  trial _ _ := by
    rintro s t ⟨bindings, log, hbut, rfl⟩
    exact ⟨rfl, bindings, log, hbut, rfl⟩
  number _ := by
    rintro s t ⟨bindings, log, hbut, rfl⟩
    exact ⟨rfl, bindings, log, hbut, rfl⟩
  supplier _ _ := by
    rintro s t ⟨bindings, log, hbut, rfl⟩
    exact ⟨rfl, bindings, log, hbut, rfl⟩

end State.Shadows

theorem cycleChain_append {path : List Key} {k : Key} (h : k ∉ outer) :
    cycleChain (outer ++ path) k = cycleChain path k := by
  unfold cycleChain
  rw [List.dropWhile_append_of_pos fun other hother => ?_]
  simp only [bne_iff_ne, ne_eq]
  rintro rfl
  exact h hother

/-- A key that is not around is refused or entered in a shadow as it is otherwise. -/
theorem Mirrors.withGuard {m n : Assemble Instance} {k : Key} (hk : k ∉ outer)
    (h : Mirrors (State.Shadows key outer) m n) :
    Mirrors (State.Shadows key outer) (Assemble.withGuard k m) (Assemble.withGuard k n) := by
  refine h.guarded ?_ ?_ ?_
  · rintro s t ⟨bindings, log, -, rfl⟩
    exact cycleChain_append hk
  · rintro s t ⟨bindings, log, hbut, rfl⟩
    exact ⟨bindings, log, hbut, by simp [State.shadow]⟩
  · rintro s t u v ⟨-, -, -, rfl⟩ ⟨bindings, log, hbut, rfl⟩
    refine ⟨bindings, log, hbut, ?_⟩
    simp only [State.shadow, List.length_append, List.take_length_add_append]

end

end ComponentAssembly

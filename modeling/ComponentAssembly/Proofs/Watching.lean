import ComponentAssembly.Proofs.DependencyLookups

/-!
# Watched runs

Some of what a state has is looked at from outside while a program runs: the journal, the declared
constructions, whether leftovers are reported, and the suppliers that are handed out.  What is kept by
the steps that touch it, calls keep, however deep they go (`Watched.keeps_callWithin`):

    Watched r I → Keeps I (callWithin depth f)

Lookups, scopes and suppliers write to the log and note events that are about no component; besides,
they only change what is not looked at.
-/

namespace ComponentAssembly

open Assemble

/-- Two states look the same from outside. -/
structure State.LooksLike (t s : State) : Prop where
  journal : t.journal = s.journal
  declarations : t.declarations = s.declarations
  setting : t.reportUnmatched = s.reportUnmatched
  suppliers : t.suppliers = s.suppliers

/-- What is watched of a state is kept by the steps that a remit allows, and by all that is not
watched; the remit allows whatever programs ask for, and however they stop. -/
structure Watched (r : Remit) (I : State → Prop) : Prop extends r.Keeps I where
  same : ∀ s t : State, t.LooksLike s → I s → I t
  /-- A supplier that is not handed out may keep its factory. -/
  drawn : ∀ (s t : State) (c : SupplierCell) (f : Factory), I s → I t →
    t.suppliers = s.suppliers ++ [c] →
      I { t with suppliers := s.suppliers ++ [{ c with factory := some f }] }
  stops : ∀ stop, r.stops stop
  points : ∀ x, r.points x
  keys : ∀ key, r.keys key

theorem keeps_attempt {I : State → Prop} {α : Type} {m : Assemble α} (h : Keeps I m) :
    Keeps I (Assemble.attempt m) := by
  refine .bind h fun r => ?_
  match r with
  | .ok a => exact fun _ h => h
  | .error (.error cause) => exact fun _ h => h
  | .error .exhausted => exact fun _ h => h

theorem keeps_ofExcept {I : State → Prop} {α : Type} (r : Except AssemblyError α) :
    Keeps I (Assemble.ofExcept r) := by
  cases r <;> exact fun _ h => h

namespace Watched

variable {r : Remit} {I : State → Prop} (hI : Watched r I)
include hI

/-! ## Lookups -/

theorem keeps_write {record : LogRecord} (h : record.diagnostic? = none) :
    Keeps I (journal (Journal.write record)) := by
  intro s hs
  refine hI.quiet s _ rfl rfl ?_ hs
  exact ⟨[], s.journal.tells_write h, fun _ hd => by cases hd⟩

theorem keeps_note {event : Event} (h : event.component? = none) :
    Keeps I (journal (Journal.note event)) := by
  intro s hs
  refine hI.note s event (fun n hn => ?_) hs
  rw [h] at hn
  cases hn

/-- Steps that change nothing that is watched. -/
theorem keeps_apart {α : Type} {m : Assemble α}
    (h : ∀ s, (m s).2.LooksLike s) : Keeps I m :=
  fun s hs => hI.same s _ (h s) hs

theorem keeps_scopeFor (marker : Option TypePath) : Keeps I (scopeFor marker) := by
  cases marker with
  | none => exact fun _ h => h
  | some marker =>
    refine .andThen (fun _ h => h) fun s => ?_
    cases s.tables.scope? marker with
    | some scope => exact fun _ h => h
    | none =>
      exact .andThen (hI.keeps_write (LogRecord.diagnostic?_eq_none (by simp) (by simp)))
        fun _ _ h => h

theorem keeps_wrapIn (scope : Scope) (key : Key) (inner : Factory) :
    Keeps I (wrapIn scope key inner) := by
  cases scope with
  | unscoped => exact fun _ h => h
  | singleton => exact hI.keeps_apart fun _ => ⟨rfl, rfl, rfl, rfl⟩
  | memo store => exact .andThen (hI.keeps_note rfl) fun _ _ h => h

theorem keeps_implicitFactory (key : Key) (maker : TypePath) :
    Keeps I (implicitFactory key maker) := by
  refine .andThen (fun _ h => h) fun s => ?_
  refine .andThen (f := fun _ => _) ?_ fun _ => ?_
  · cases s.checkAcyclic key (s.declared maker) <;> exact fun _ h => h
  · refine .andThen (hI.keeps_scopeFor _) fun scope => .andThen (hI.keeps_wrapIn _ _ _) fun kept => ?_
    refine .andThen (fun _ h => h) fun t => ?_
    cases t.tables.binding? key with
    | some b => exact fun _ h => h
    | none =>
      refine .andThen (hI.keeps_write (LogRecord.diagnostic?_debug _ _)) fun _ => ?_
      exact .andThen (hI.keeps_apart fun _ => ⟨rfl, rfl, rfl, rfl⟩) fun _ _ h => h

theorem keeps_getFactory (key : Key) : Keeps I (getFactory key) := by
  refine .andThen (fun _ h => h) fun s => ?_
  cases s.factory? key with
  | some f => exact fun _ h => h
  | none =>
    dsimp only
    cases s.tables.construction? key.type with
    | some maker => exact hI.keeps_implicitFactory key maker
    | none => exact fun _ h => h

theorem keeps_dependencyFactory (p : InjectionPoint) :
    Keeps I (dependencyFactory p) := by
  refine .andThen (fun _ h => h) fun s => ?_
  cases p.candidates.findSome? s.factory? with
  | some f => exact fun _ h => h
  | none =>
    dsimp only
    cases p.construction.or (s.tables.construction? p.key.type) with
    | some maker => exact .andThen (hI.keeps_implicitFactory _ _) fun _ _ h => h
    | none =>
      dsimp only
      split <;> exact fun _ h => h

theorem keeps_findFactory (lookup : Lookup) : Keeps I (findFactory lookup) := by
  cases lookup with
  | resolved key f => exact fun _ h => h
  | dependency p =>
    refine .andThen (fun _ h => h) fun s => ?_
    split
    · refine .andThen (fun _ h => h) fun _ => .andThen (hI.keeps_dependencyFactory p) fun found => ?_
      cases found <;> exact fun _ h => h
    · refine .andThen (hI.keeps_dependencyFactory p) fun found => ?_
      cases found <;> exact fun _ h => h
  | numbered id key failures f =>
    refine .andThen (hI.keeps_note rfl) fun _ => ?_
    refine .andThen (hI.keeps_apart fun _ => ⟨rfl, rfl, rfl, rfl⟩) fun count => ?_
    split
    · exact .andThen (fun _ h => h) fun _ _ h => h
    · exact fun _ h => h

/-! ## Answers of an injector -/

section

variable {call : Factory → Assemble Instance} (hcall : ∀ f, Keeps I (call f))
include hcall

/-- A dependency that is drawn gets a supplier of its own, which keeps the factory before it is
called. -/
theorem keeps_draw (x : InjectionPoint) (hx : r.points x) (type : TypePath) :
    Keeps I ((Provider.of call).draw (.dependency x) type) := by
  intro s hs
  have hnew : I { s with suppliers := s.suppliers ++ [{ lookup := .dependency x }] } :=
    hI.supplier s _ hs (.inl hx)
  show I (pull call { id := s.suppliers.length, key := x.key, type } { s with
    suppliers := s.suppliers ++ [{ lookup := .dependency x }] }).2
  rw [pull_eq]
  generalize hu : ({ s with suppliers := s.suppliers ++ [{ lookup := .dependency x }] } : State) = u
    at hnew ⊢
  have hsuppliers : u.suppliers = s.suppliers ++ [{ lookup := .dependency x }] := by rw [← hu]
  have hcell : u.suppliers[s.suppliers.length]? = some { lookup := .dependency x } := by
    rw [hsuppliers]
    exact List.getElem?_concat_length
  have hrun : factoryOf { id := s.suppliers.length, key := x.key, type } u = _ :=
    State.factoryOf_empty hcell
  have hkeeps := hI.keeps_findFactory (.dependency x) u hnew
  have hsame := ((SupplierFree.findFactory (.dependency x)).suppliers_eq u).trans hsuppliers
  cases hfound : findFactory (.dependency x) u with
  | mk result t =>
    rw [hfound] at hrun hkeeps hsame
    cases result with
    | error stop =>
      rw [bind_error hrun]
      exact hkeeps
    | ok f =>
      rw [bind_ok hrun]
      refine Keeps.andThen (hcall f) (fun i => keeps_ofExcept _) _ ?_
      rw [State.fillSupplier_last f hsame]
      exact hI.drawn s t _ f hs hkeeps hsame

theorem keeps_substitutor :
    Keeps I (currentSubstitutor call) := by
  refine .andThen (fun _ h => h) fun s => ?_
  cases s.factory? Substitutor.key with
  | none => exact fun _ h => h
  | some f =>
    refine .andThen (keeps_attempt (.andThen (hcall f) fun i => keeps_ofExcept _)) fun r => ?_
    cases r with
    | ok i =>
      dsimp only
      split <;> exact fun _ h => h
    | error cause =>
      exact .andThen (hI.keeps_write (LogRecord.diagnostic?_eq_none (by simp) (by simp)))
        fun _ _ h => h

theorem provider_keeps : (Provider.of call).Keeps r I := by
  refine .answers hI.stops (hI.keeps_substitutor hcall) (fun x => ?_) (fun key => ?_)
    fun x type => ?_
  · refine .andThen (hI.keeps_dependencyFactory x) fun found => ?_
    cases found with
    | none => exact fun _ h => h
    | some f => exact .andThen (hcall f) fun _ _ h => h
  · exact .andThen (hI.keeps_getFactory key) hcall
  · exact hI.keeps_draw hcall x (hI.points x) type

end

/-! ## Calls -/

theorem keeps_run {call : Factory → Assemble Instance}
    (hcall : ∀ f, Keeps I (call f)) (f : Factory) :
    Keeps I (f.run (Provider.of call)) := by
  -- layers are taken off one by one; what is left is a program that asks the injector
  have hcore : ∀ f : Factory, f.isCore → Keeps I (f.run (Provider.of call)) :=
    fun f hf s hs => (Program.keeps hI.toKeeps (hI.provider_keeps hcall)
      (Program.run_core hf (fun key _ => hI.keys key) fun _ _ _ x _ => hI.points x) s hs).1
  induction f with
  | guarded key inner ih =>
    intro s hs
    show I (withGuard key (inner.run (Provider.of call)) s).2
    cases hchain : cycleChain s.inProgress key with
    | some chain =>
      rw [withGuard_circular hchain]
      exact hs
    | none =>
      rw [withGuard_entered hchain]
      have hentered : I { s with inProgress := s.inProgress ++ [key] } :=
        hI.same s _ ⟨rfl, rfl, rfl, rfl⟩ hs
      have hran := ih _ hentered
      generalize inner.run (Provider.of call) { s with inProgress := s.inProgress ++ [key] } = ran
        at hran ⊢
      exact hI.same ran.2 _ ⟨rfl, rfl, rfl, rfl⟩ hran
  | once cell inner ih =>
    intro s hs
    show I (keepIn cell (inner.run (Provider.of call)) s).2
    cases hcell : s.cell? cell with
    | some i =>
      rw [keepIn_full hcell]
      exact hs
    | none =>
      by_cases hbusy : cell ∈ s.filling
      · rw [keepIn_busy hcell hbusy]
        exact hs
      · rw [keepIn_empty hcell hbusy]
        have hfilled : Keeps I (do
            let i ← inner.run (Provider.of call)
            State.fillCell cell i
            return i : Assemble Instance) :=
          .andThen ih fun i => .andThen (hI.keeps_apart fun _ => ⟨rfl, rfl, rfl, rfl⟩) fun _ _ h => h
        have hentered : I { s with filling := s.filling ++ [cell] } :=
          hI.same s _ ⟨rfl, rfl, rfl, rfl⟩ hs
        have hran := hfilled _ hentered
        generalize (do
            let i ← inner.run (Provider.of call)
            State.fillCell cell i
            return i : Assemble Instance) { s with filling := s.filling ++ [cell] } = ran at hran ⊢
        exact hI.same ran.2 _ ⟨rfl, rfl, rfl, rfl⟩ hran
  | memo store key inner ih =>
    refine .andThen (fun _ h => h) fun s => ?_
    cases s.stored? store key with
    | some i => exact fun _ h => h
    | none =>
      refine .andThen ih fun i => .andThen (fun _ h => h) fun t => ?_
      cases t.stored? store key with
      | some earlier => exact fun _ h => h
      | none => exact .andThen (hI.keeps_apart fun _ => ⟨rfl, rfl, rfl, rfl⟩) fun _ _ h => h
  | constant i => exact hcore _ rfl
  | recipe r rewrap => exact hcore _ rfl
  | method key r => exact hcore _ rfl
  | construct key c => exact hcore _ rfl

/-- **Calls.**  However deep a call may go, it keeps what is watched. -/
theorem keeps_callWithin (depth : Nat) (f : Factory) : Keeps I (callWithin depth f) := by
  induction depth generalizing f with
  | zero => exact fun _ h => h
  | succ depth ih => exact hI.keeps_run ih f

end Watched

end ComponentAssembly

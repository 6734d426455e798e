import ComponentAssembly.Proofs.DependencyLookups
import ComponentAssembly.Proofs.Shadows

/-!
# Runs that avoid a key

A run avoids a key if it looks nothing up that depends on what the key is bound to, and does not enter
the key (`Factory.Avoids`).  To see whether it does, it is run so that it halts where it would not:

    s.consults key ..               a lookup tries the key, or its static check depends on the key
    f.callAvoiding key guards       halts at such a lookup, or, with guards, where the key is entered

A run that avoids a key goes the same way in a shadow of the state (`callThrough_mirrors`).
-/

namespace ComponentAssembly

open Assemble Stoppable

section

variable {key : Key} {outer : List Key} {s t : State}

/-! ## Lookups -/

namespace State

/-- A state in which a key is bound on request. -/
def requested (s : State) (key : Key) : State :=
  { s with tables := s.tables.put { key, factory := default, origin := .explicit "" } }

theorem isExplicit_eq_of_binding? {tables tables' : Tables} {k : Key}
    (h : tables'.binding? k = tables.binding? k) : tables'.isExplicit k = tables.isExplicit k := by
  simp only [Tables.isExplicit, h]

/-- A shadow knows of a construction what the state knows, or what it would with the key bound on
request. -/
theorem Shadows.checkAcyclic (h : s.Shadows key outer t) {k : Key} {c : Construction}
    (hcheck : (s.requested key).checkAcyclic k c = s.checkAcyclic k c) :
    t.checkAcyclic k c = s.checkAcyclic k c := by
  obtain ⟨bindings, log, hbut, rfl⟩ := h
  have hothers : ∀ other, other ≠ key →
      (s.shadow outer bindings log).tables.isExplicit other = s.tables.isExplicit other :=
    fun other hne => isExplicit_eq_of_binding? (hbut.others other hne)
  rcases hbut.requested with hexplicit | hsame
  · rw [← hcheck]
    refine checkAcyclic_congr (by rfl) (checkedMaker_congr (fun other => ?_) ?_) k c
    · by_cases hne : other = key
      · subst hne
        refine Eq.trans hexplicit ?_
        simp [requested, Tables.isExplicit, Origin.isExplicit]
      · rw [hothers other hne]
        refine (isExplicit_eq_of_binding? ?_).symm
        simp [requested, hne]
    · exact (congrArg Tables.constructions (put_eq s.tables _)).symm
  · refine checkAcyclic_congr (by rfl) (checkedMaker_congr (fun other => ?_) ?_) k c
    · by_cases hne : other = key
      · subst hne
        exact hsame
      · exact hothers other hne
    · rfl

/-- The keys of a dependency that are tried: those up to the first that is bound. -/
def tried (s : State) : List Key → List Key
  | [] => []
  | k :: rest =>
    match s.tables.binding? k with
    | some _ => [k]
    | none => k :: s.tried rest

theorem mem_tried (s : State) (k : Key) (rest : List Key) : k ∈ s.tried (k :: rest) := by
  unfold tried
  split <;> exact List.mem_cons_self

/-- Whether a lookup depends on what a key is bound to: the key is tried, or the static check would come
out otherwise if the key were bound on request. -/
def consults (s : State) (key : Key) (candidates : List Key) (own : Key) (maker? : Option TypePath) :
    Bool :=
  key ∈ s.tried candidates ||
    candidates.all (s.tables.binding? · |>.isNone) && maker?.any fun maker =>
      (s.requested key).checkAcyclic own (s.declared maker) ≠ s.checkAcyclic own (s.declared maker)

/-- Whether the lookup of a key depends on what another is bound to. -/
def consultsFor (s : State) (key k : Key) : Bool :=
  s.consults key [k] k (s.tables.construction? k.type)

/-- Whether the lookup of a dependency depends on what a key is bound to. -/
def consultsAt (s : State) (key : Key) (p : InjectionPoint) : Bool :=
  s.consults key p.candidates p.key (p.construction.or (s.tables.construction? p.key.type))

theorem consults_eq_false {candidates : List Key} {own : Key} {maker? : Option TypePath}
    (h : s.consults key candidates own maker? = false) :
    key ∉ s.tried candidates ∧ ((∀ k ∈ candidates, s.tables.binding? k = none) → ∀ maker ∈ maker?,
      (s.requested key).checkAcyclic own (s.declared maker) =
        s.checkAcyclic own (s.declared maker)) := by
  unfold consults at h
  simp only [Bool.or_eq_false_iff, decide_eq_false_iff_not] at h
  refine ⟨h.1, fun hunbound maker hmaker => ?_⟩
  obtain rfl := Option.mem_def.mp hmaker
  have hrest := h.2
  simp only [Option.any_some, Bool.and_eq_false_iff, List.all_eq_false, Option.isNone_iff_eq_none,
    decide_eq_false_iff_not, not_not] at hrest
  rcases hrest with ⟨k, hk, hbound⟩ | hsame
  · exact absurd (hunbound k hk) hbound
  · exact hsame

/-- Where a key is not tried, the same one of some keys is found bound. -/
theorem Shadows.findSome?_eq (h : s.Shadows key outer t) {candidates : List Key}
    (htried : key ∉ s.tried candidates) :
    candidates.findSome? t.tables.binding? = candidates.findSome? s.tables.binding? := by
  induction candidates with
  | nil => rfl
  | cons k rest ih =>
    unfold tried at htried
    simp only [List.findSome?_cons]
    cases hb : s.tables.binding? k with
    | some b =>
      rw [hb] at htried
      rw [h.binding? (fun heq => htried (by simp [heq])), hb]
    | none =>
      rw [hb] at htried
      obtain ⟨hne, hrest⟩ := not_or.mp fun hmem => htried (List.mem_cons.mpr hmem)
      rw [h.binding? (Ne.symm hne), hb]
      exact ih hrest

/-- Another key is bound by resolution. -/
theorem Shadows.put (h : s.Shadows key outer t) {b : Binding} (hkey : b.key ≠ key)
    (hunbound : s.tables.binding? b.key = none) (log log' : List LogRecord) :
    State.Shadows key outer
      { s with tables := s.tables.put b, journal := { s.journal with log } }
      { t with tables := t.tables.put b, journal := { t.journal with log := log' } } := by
  have hunbound' := (h.binding? hkey).trans hunbound
  obtain ⟨bindings, log₀, hbut, rfl⟩ := h
  have hput : Tables.put { s.tables with bindings } b = _ := put_of_unbound hunbound'
  have hbound := binding?_append hunbound
  have hbound' := @binding?_append { s.tables with bindings } b hunbound'
  refine ⟨bindings ++ [b], log', ⟨fun k hk => ?_, ?_⟩, ?_⟩
  · rw [put_of_unbound hunbound]
    exact (hbound' k).trans ((if_congr Iff.rfl rfl (hbut.others k hk)).trans (hbound k).symm)
  · rw [put_of_unbound hunbound]
    have hsame := isExplicit_eq_of_binding? ((hbound key).trans (if_neg (Ne.symm hkey)))
    have hsame' := isExplicit_eq_of_binding? ((hbound' key).trans (if_neg (Ne.symm hkey)))
    exact hbut.requested.imp hsame'.trans fun heq => (hsame'.trans heq).trans hsame.symm
  · show ({ s.shadow outer bindings log₀ with
      tables := Tables.put { s.tables with bindings } b
      journal := { s.journal with log := log' } } : State) = _
    rw [hput, put_of_unbound hunbound]
    rfl

/-- A wrapped factory keeps its instances in the same cell. -/
theorem Shadows.wrapIn (scope : Scope) (k : Key) (inner : Factory) :
    Follows (State.Shadows key outer) (Assemble.wrapIn scope k inner)
      (Assemble.wrapIn scope k inner) := by
  rintro s t ⟨bindings, log, hbut, rfl⟩
  cases scope <;> exact ⟨rfl, bindings, log, hbut, rfl⟩

/-- An unbound key is bound by resolution in a shadow as it is otherwise. -/
theorem Shadows.implicitFactory (h : s.Shadows key outer t) {k : Key} {maker : TypePath}
    (hk : k ≠ key) (hunbound : s.tables.binding? k = none)
    (hcheck : (s.requested key).checkAcyclic k (s.declared maker) =
      s.checkAcyclic k (s.declared maker)) :
    FollowsAt (State.Shadows key outer) (Assemble.implicitFactory k maker)
      (Assemble.implicitFactory k maker) s t := by
  have hcheck' : t.checkAcyclic k (t.declared maker) = s.checkAcyclic k (s.declared maker) := by
    rw [h.sameSetting.declared]
    exact h.checkAcyclic hcheck
  cases hresult : s.checkAcyclic k (s.declared maker) with
  | error stop =>
    exact .of_eq (implicitFactory_error hresult) (implicitFactory_error (hcheck'.trans hresult)) h
  | ok _ =>
    obtain ⟨log, told, hrun⟩ := implicitFactory_passed hresult
    obtain ⟨log', told', hrun'⟩ := implicitFactory_passed (hcheck'.trans hresult)
    obtain ⟨bindings, log₀, hbut, rfl⟩ := id h
    have hlogged : State.Shadows key outer { s with journal := { s.journal with log } }
        { s.shadow outer bindings log₀ with journal := { s.journal with log := log' } } :=
      ⟨bindings, log', hbut, rfl⟩
    obtain ⟨kept, u, hu, -, -, -, hrest⟩ := wrapIn_eq { s with journal := { s.journal with log } }
      (s.tables.scopeOf (s.declared maker).scope) k (.construct k (s.declared maker))
    have hwrap := Shadows.wrapIn (s.tables.scopeOf (s.declared maker).scope) k
      (.construct k (s.declared maker)) _ _ hlogged
    obtain ⟨v, hv, huv⟩ := hwrap.elim hu
    have hunbound : u.tables.binding? k = none := by
      rw [hrest]
      exact hunbound
    have hrun := hrun kept u hu
    have hrun' := hrun' kept v hv
    rw [hunbound] at hrun
    rw [huv.binding? hk, hunbound] at hrun'
    have hput := huv.put (b := { key := k, factory := .guarded k kept, origin := .implicit })
      hk hunbound
    exact .of_eq hrun hrun' (hput _ _)

theorem Shadows.construction? (h : s.Shadows key outer t) (type : TypePath) :
    t.tables.construction? type = s.tables.construction? type := by
  obtain ⟨bindings, log, -, rfl⟩ := h
  rfl

/-- The lookup of a key that does not depend on another. -/
theorem Shadows.getFactory (h : s.Shadows key outer t) {k : Key} (hk : s.consultsFor key k = false) :
    FollowsAt (State.Shadows key outer) (Assemble.getFactory k) (Assemble.getFactory k) s t := by
  obtain ⟨htried, hcheck⟩ := consults_eq_false hk
  have hne : k ≠ key := by
    rintro rfl
    exact htried (s.mem_tried k [])
  have hsame := h.binding? hne
  cases hb : s.tables.binding? k with
  | some b => exact .of_eq (getFactory_bound hb) (getFactory_bound (hsame.trans hb)) h
  | none =>
    have hrun := getFactory_unbound hb
    have hrun' := getFactory_unbound (hsame.trans hb)
    rw [h.construction?] at hrun'
    cases hmaker : s.tables.construction? k.type with
    | none =>
      rw [hmaker] at hrun hrun'
      exact .of_eq hrun hrun' h
    | some maker =>
      rw [hmaker] at hrun hrun'
      refine .of_same (h.implicitFactory hne hb (hcheck ?_ maker hmaker)) hrun hrun'
      simpa using hb

/-- The lookup of a dependency that does not depend on a key. -/
theorem Shadows.dependencyFactory (h : s.Shadows key outer t) {p : InjectionPoint}
    (hp : s.consultsAt key p = false) :
    FollowsAt (State.Shadows key outer) (Assemble.dependencyFactory p) (Assemble.dependencyFactory p)
      s t := by
  obtain ⟨htried, hcheck⟩ := consults_eq_false hp
  have hsame : t.chosen? p = s.chosen? p := h.findSome?_eq htried
  cases hb : s.chosen? p with
  | some b => exact .of_eq (dependencyFactory_chosen hb) (dependencyFactory_chosen (hsame.trans hb)) h
  | none =>
    have hrun := dependencyFactory_unbound hb
    have hrun' := dependencyFactory_unbound (hsame.trans hb)
    rw [h.construction?] at hrun'
    cases hmaker : p.construction.or (s.tables.construction? p.key.type) with
    | none =>
      rw [hmaker] at hrun hrun'
      dsimp only at hrun hrun'
      split at hrun
      · next hqualified => exact .of_eq hrun (hrun'.trans (if_pos hqualified)) h
      · next hplain => exact .of_eq hrun (hrun'.trans (if_neg hplain)) h
    | some maker =>
      rw [hmaker] at hrun hrun'
      have hunbound := chosen?_eq_none_iff.mp hb
      have hne : p.key ≠ key := by
        rintro rfl
        exact htried (s.mem_tried p.key _)
      have hfound := h.implicitFactory hne (unbound_of_chosen? hb) (hcheck hunbound maker hmaker)
      exact .of_same (hfound.map some) hrun hrun'

/-- The lookup of a dependency that was put off. -/
theorem Shadows.findFactory (h : s.Shadows key outer t) {p : InjectionPoint}
    (hp : s.alive = true → s.consultsAt key p = false) :
    FollowsAt (State.Shadows key outer) (Assemble.findFactory (.dependency p))
      (Assemble.findFactory (.dependency p)) s t := by
  have hrun := s.findFactory_dependency_eq p
  have hrun' := t.findFactory_dependency_eq p
  rw [h.sameSetting.alive] at hrun'
  cases halive : s.alive with
  | false =>
    rw [halive] at hrun hrun'
    exact .of_eq hrun hrun' h
  | true =>
    rw [halive] at hrun hrun'
    cases hfound : Assemble.dependencyFactory p s with
    | mk r u =>
      obtain ⟨v, hfound', huv⟩ := (h.dependencyFactory (hp halive)).elim hfound
      rw [hfound] at hrun
      rw [hfound'] at hrun'
      match r with
      | .ok (some f) => exact .of_eq hrun hrun' huv
      | .ok none => exact .of_eq hrun hrun' huv
      | .error stop => exact .of_eq hrun hrun' huv

/-- A new supplier of a dependency looks it up, and keeps the factory. -/
theorem Shadows.factoryOf (h : s.Shadows key outer t) {p : InjectionPoint} {supplier : Supplier}
    (hcell : s.suppliers[supplier.id]? = some { lookup := .dependency p })
    (hp : s.alive = true → s.consultsAt key p = false) :
    FollowsAt (State.Shadows key outer) (Assemble.factoryOf supplier) (Assemble.factoryOf supplier)
      s t := by
  have hcell' : t.suppliers[supplier.id]? = some { lookup := .dependency p } := by
    obtain ⟨bindings, log, -, rfl⟩ := h
    exact hcell
  have hrun := factoryOf_empty hcell
  have hrun' := factoryOf_empty hcell'
  cases hfound : Assemble.findFactory (.dependency p) s with
  | mk r u =>
    obtain ⟨v, hfound', huv⟩ := (h.findFactory hp).elim hfound
    rw [hfound] at hrun
    rw [hfound'] at hrun'
    cases r with
    | error stop => exact .of_eq hrun hrun' huv
    | ok f =>
      obtain ⟨bindings, log, hbut, rfl⟩ := huv
      exact .of_eq hrun hrun' ⟨bindings, log, hbut, rfl⟩

end State

end

/-! ## Runs that avoid a key -/

/-- Halts if something holds of the state, before a step. -/
def Assemble.haltIf {α : Type} (holds : State → Bool) (step : Assemble α) : Assemble α := fun s =>
  if holds s then (.error .exhausted, s) else step s

/-- The provider of an injector which halts where a lookup depends on what a key is bound to, or, with
`guards`, where the key is to come into progress. -/
def Provider.avoiding (key : Key) (guards : Bool) (call : Factory → Assemble Instance) :
    Provider where
  substitutor := haltIf (fun _ => Substitutor.key == key) (currentSubstitutor call)
  supply p := haltIf (·.consultsAt key p) ((Provider.of call).supply p)
  ask k := haltIf (·.consultsFor key k) ((Provider.of call).ask k)
  draw lookup type := do
    let supplier ← State.newSupplier lookup type
    match lookup with
    | .dependency p => haltIf (fun s => s.alive && s.consultsAt key p) (pull call supplier)
    | _ => pull call supplier
  enter k step := haltIf (fun _ => guards && k == key) (withGuard k step)

/-- Runs a factory in such a way that it halts where a lookup depends on what a key is bound to, or,
with `guards`, where the key is to come into progress. -/
def Factory.callAvoiding (key : Key) (guards : Bool) (f : Factory) : Assemble Instance := do
  callThrough (.avoiding key guards) ((← get).depthFor f) f

/-- A call of a factory neither enters a key nor looks anything up that depends on what the key is bound
to. -/
def Factory.Avoids (f : Factory) (key : Key) (s : State) : Prop :=
  stop? (f.callAvoiding key true s).1 ≠ some .exhausted

section

variable {key : Key} {outer : List Key} {s t : State}

theorem MirrorsAt.haltIf {α : Type} {R : State → State → Prop} {holds : State → Bool}
    {m n : Assemble α} (h : holds s = false → MirrorsAt R m n s t) :
    MirrorsAt R (Assemble.haltIf holds m) n s t := by
  unfold Assemble.haltIf
  intro hne
  cases hs : holds s with
  | true =>
    simp only [hs, if_true] at hne
    exact absurd rfl hne
  | false =>
    simp only [hs] at hne
    exact (h hs hne).of_same (by simp [hs]) rfl

/-- A new supplier of a dependency whose lookup does not depend on a key. -/
theorem State.Shadows.pull {call call' : Factory → Assemble Instance}
    (hcall : ∀ f, Mirrors (State.Shadows key outer) (call f) (call' f)) (h : s.Shadows key outer t)
    {p : InjectionPoint} {supplier : Supplier}
    (hcell : s.suppliers[supplier.id]? = some { lookup := .dependency p }) :
    MirrorsAt (State.Shadows key outer)
      (Assemble.haltIf (fun s => s.alive && s.consultsAt key p) (Assemble.pull call supplier))
      (Assemble.pull call' supplier) s t :=
  .haltIf fun hp => (h.factoryOf hcell (by simpa using hp)).pull hcall

/-- Answers that do not depend on a key are the same in a shadow, if the calls are. -/
theorem Provider.avoiding_mirrors (houter : ∀ k ∈ outer, k = key)
    {call call' : Factory → Assemble Instance}
    (hcall : ∀ f, Mirrors (State.Shadows key outer) (call f) (call' f)) :
    (Provider.avoiding key true call).MirroredBy (State.Shadows key outer) (Provider.of call') where
  substitutor s t h := .haltIf fun hkey => by
    have hne : Substitutor.key ≠ key := by simpa using hkey
    refine (State.Shadows.alongside key outer).substitutor hcall h ?_
    simp only [State.factory?, h.binding? hne]
  supply p s t h := .haltIf fun hp => (h.dependencyFactory hp).supply hcall
  ask k s t h := .haltIf fun hk => .found (h.getFactory hk) hcall
  draw p type s t h := by
    obtain ⟨bindings, log, hbut, rfl⟩ := h
    have hnew : State.Shadows key outer
        { s with suppliers := s.suppliers ++ [{ lookup := .dependency p }] }
        { s.shadow outer bindings log with
          suppliers := s.suppliers ++ [{ lookup := .dependency p }] } := ⟨bindings, log, hbut, rfl⟩
    exact (hnew.pull hcall List.getElem?_concat_length).of_same rfl rfl
  enter k m n h s t hst := .haltIf fun hk => by
    refine Mirrors.withGuard (fun hmem => ?_) h s t hst
    simp [houter k hmem] at hk

/-- **Calls.**  A call that avoids a key goes the same way in a shadow, amid the key. -/
theorem callThrough_mirrors (houter : ∀ k ∈ outer, k = key) {depth depth' : Nat}
    (hdepth : depth ≤ depth') (f : Factory) :
    Mirrors (State.Shadows key outer) (callThrough (.avoiding key true) depth f)
      (callWithin depth' f) := by
  induction depth generalizing depth' f with
  | zero => exact fun _ _ _ hne => absurd rfl hne
  | succ depth ih =>
    obtain ⟨depth', rfl⟩ : ∃ n, depth' = n + 1 := ⟨depth' - 1, by omega⟩
    exact f.run_mirrors (State.Shadows.alongside key outer)
      (Provider.avoiding_mirrors houter (ih (Nat.le_of_succ_le_succ hdepth)))

end

end ComponentAssembly

import ComponentAssembly.Proofs.Shadows
import ComponentAssembly.Proofs.Singletons
import ComponentAssembly.Proofs.Suppliers

/-!
# Lookups that nobody asks for

A supplier is the only one to use its lookup, and it does so only when it is pulled and has no factory
yet.  So a lookup that is not needed any more, or not needed yet, can be replaced by any other:

    s.Relooks id lookup t     t is s, but supplier id has another lookup
    s.Unasked id rs           supplier id has found its factory, or is not pulled among rs
    Reachable.relooked        then rs are answered alike, and lead to such states again

Calls make suppliers of their own, and pull only these.
-/

namespace ComponentAssembly

open Assemble Stoppable

/-! ## Other lookups -/

theorem modify_concat {α : Type} (change : α → α) {as : List α} {i : Nat} (hi : i < as.length) (a : α) :
    (as ++ [a]).modify i change = as.modify i change ++ [a] := by
  have hi' : i < (as ++ [a]).length := by
    rw [List.length_append]
    omega
  rw [List.modify_eq_take_cons_drop hi', List.modify_eq_take_cons_drop hi,
    List.take_append_of_le_length hi.le, List.drop_append_of_le_length hi,
    List.getElem_append_left hi, List.append_assoc, List.cons_append]

namespace State

/-- A state in which a supplier has another lookup. -/
def relook (s : State) (id : Nat) (lookup : Lookup) : State :=
  { s with suppliers := s.suppliers.modify id ({ · with lookup }) }

/-- One state is another but for the lookup of a supplier, which leads to as many keys or more. -/
def Relooks (id : Nat) (lookup : Lookup) (s t : State) : Prop :=
  ∃ c, s.Supplies id c ∧ c.lookup.keys.length ≤ lookup.keys.length ∧ t = s.relook id lookup

/-- A supplier can do without its lookup: it has its factory. -/
def HasFound (id : Nat) (s : State) : Prop :=
  ∃ lookup f, s.Supplies id { lookup, factory := some f }

end State

section

variable {id : Nat} {lookup : Lookup} {s t : State}

namespace State.Relooks

theorem lt_length (h : s.Relooks id lookup t) : id < s.suppliers.length := by
  obtain ⟨c, hc, -⟩ := h
  exact (List.getElem?_eq_some_iff.mp hc).1

theorem getElem?_other (h : s.Relooks id lookup t) {other : Nat} (hother : other ≠ id) :
    t.suppliers[other]? = s.suppliers[other]? := by
  obtain ⟨c, -, -, rfl⟩ := h
  exact List.getElem?_modify_ne _ _ (Ne.symm hother)

/-- The other state has room for as many nested calls. -/
theorem depthFor_le (h : s.Relooks id lookup t) (f : Factory) : s.depthFor f ≤ t.depthFor f := by
  have hlt := h.lt_length
  obtain ⟨c, hc, hkeys, rfl⟩ := h
  have hcell : s.suppliers[id] = c := Option.some.inj ((List.getElem?_eq_getElem hlt).symm.trans hc)
  have hkeys : (s.suppliers.flatMap supplierKeys).length ≤
      ((s.suppliers.modify id ({ · with lookup })).flatMap supplierKeys).length := by
    rw [List.modify_eq_take_cons_drop hlt, hcell]
    conv_lhs => rw [← List.take_append_drop id s.suppliers, List.drop_eq_getElem_cons hlt, hcell]
    simp only [List.flatMap_append, List.flatMap_cons, List.length_append, supplierKeys]
    omega
  simp only [State.depthFor, State.knownKeys, State.relook, List.length_append, List.length_cons,
    State.declaredKeys]
  omega

/-- A step that neither looks at suppliers nor changes them. -/
theorem follows {α : Type} {m : StateM State α} (hm : SupplierFree m) :
    Follows (State.Relooks id lookup) m m := by
  rintro s t ⟨c, hc, hkeys, rfl⟩
  have hsame := hm.suppliers_eq s
  refine .of_eq (a := (m s).1) rfl (hm s _) ⟨c, ?_, hkeys, ?_⟩
  · unfold State.Supplies
    rw [hsame]
    exact hc
  · simp only [State.relook, hsame]

theorem newSupplier (other : Lookup) (type : TypePath) :
    Follows (State.Relooks id lookup) (State.newSupplier other type)
      (State.newSupplier other type) := by
  intro s t h
  have hlt := h.lt_length
  obtain ⟨c, hc, hkeys, rfl⟩ := h
  refine ⟨?_, c, hc.append _, hkeys, ?_⟩
  · exact congrArg (Supplier.mk · other.key type) (List.length_modify _ _ _)
  · exact congrArg (fun suppliers => ({ s with suppliers } : State))
      (modify_concat _ hlt { lookup := other }).symm

theorem alongside (id : Nat) (lookup : Lookup) : Alongside (State.Relooks id lookup) where
  setting := by
    rintro s t ⟨c, -, -, rfl⟩
    exact ⟨rfl, rfl, rfl, rfl, rfl⟩
  kept := by
    rintro s t ⟨c, -, -, rfl⟩
    exact ⟨rfl, rfl, rfl⟩
  cells := by
    rintro s t change ⟨c, hc, hkeys, rfl⟩
    exact ⟨c, hc, hkeys, rfl⟩
  filling := by
    rintro s t change ⟨c, hc, hkeys, rfl⟩
    exact ⟨c, hc, hkeys, rfl⟩
  stores := by
    rintro s t change ⟨c, hc, hkeys, rfl⟩
    exact ⟨c, hc, hkeys, rfl⟩
  journal _ := follows fun _ _ => rfl
  trial _ _ := follows fun _ _ => rfl
  number _ := follows fun _ _ => rfl
  supplier other type := newSupplier other type

theorem withGuard {m n : Assemble Instance} {key : Key} (h : Mirrors (State.Relooks id lookup) m n) :
    Mirrors (State.Relooks id lookup) (Assemble.withGuard key m) (Assemble.withGuard key n) := by
  refine h.guarded ?_ ?_ ?_
  · rintro s t ⟨c, -, -, rfl⟩
    rfl
  · rintro s t ⟨c, hc, hkeys, rfl⟩
    exact ⟨c, hc, hkeys, rfl⟩
  · rintro s t u v ⟨-, -, -, rfl⟩ ⟨c, hc, hkeys, rfl⟩
    exact ⟨c, hc, hkeys, rfl⟩

/-! ## Pulls -/

theorem fillSupplier {other : Nat} (hother : other ≠ id) (f : Factory) :
    Follows (State.Relooks id lookup) (State.fillSupplier other f) (State.fillSupplier other f) := by
  rintro s t ⟨c, hc, hkeys, rfl⟩
  refine ⟨rfl, c, hc.fill_other hother f, hkeys, ?_⟩
  exact congrArg (fun suppliers => ({ s with suppliers } : State))
    (List.modify_modify_ne _ _ _ (Ne.symm hother))

/-- A supplier gives the same factory, if it is another one or has found it. -/
theorem factoryOf (h : s.Relooks id lookup t) {supplier : Supplier}
    (hneeds : supplier.id = id → s.HasFound id) :
    FollowsAt (State.Relooks id lookup) (Assemble.factoryOf supplier) (Assemble.factoryOf supplier)
      s t := by
  by_cases hid : supplier.id = id
  · obtain ⟨known, f, hfound⟩ := hneeds hid
    have hfound' : t.Supplies id { lookup, factory := some f } := by
      obtain ⟨-, -, -, rfl⟩ := h
      exact (List.getElem?_modify_eq _ _ _).trans (congrArg _ hfound)
    subst hid
    exact .of_eq (factoryOf_found hfound) (factoryOf_found hfound') h
  · have hsame := h.getElem?_other hid
    match hcell : s.suppliers[supplier.id]? with
    | none => exact .of_eq (factoryOf_missing hcell) (factoryOf_missing (hsame.trans hcell)) h
    | some { lookup := known, factory := some f } =>
      exact .of_eq (factoryOf_found hcell) (factoryOf_found (hsame.trans hcell)) h
    | some { lookup := known, factory := none } =>
      have hrun := factoryOf_empty hcell
      have hrun' := factoryOf_empty (hsame.trans hcell)
      cases hfound : findFactory known s with
      | mk r u =>
        obtain ⟨v, hfound', huv⟩ := (follows (.findFactory known) s t h).elim hfound
        rw [hfound] at hrun
        rw [hfound'] at hrun'
        cases r with
        | error stop => exact .of_eq hrun hrun' huv
        | ok f => exact .of_eq hrun hrun' (fillSupplier hid f u v huv).state

/-! ## Calls -/

variable {call call' : Factory → Assemble Instance}
  (hcall : ∀ f, Mirrors (State.Relooks id lookup) (call f) (call' f))
include hcall

/-- Answers that need no lookup of the supplier: those of new ones look up by their own. -/
theorem provider : (Provider.of call).MirroredBy (State.Relooks id lookup) (Provider.of call') where
  substitutor s t h := by
    refine (alongside id lookup).substitutor hcall h ?_
    obtain ⟨-, -, -, rfl⟩ := h
    rfl
  supply p s t h := (follows (.dependencyFactory p) s t h).supply hcall
  ask key s t h := .found (follows (.getFactory key) s t h) hcall
  draw p type s t h := by
    have hid : s.suppliers.length ≠ id := h.lt_length.ne'
    refine .after (f := ExceptT.bindCont (Assemble.pull call))
      (g := ExceptT.bindCont (Assemble.pull call'))
      ((newSupplier (.dependency p) type).lift s t h) fun u v huv => ?_
    exact (huv.factoryOf fun heq => absurd heq hid).pull hcall
  enter key m n h := withGuard h

end State.Relooks

/-- However deep a call may go, it does not need the lookup of a supplier that is handed out. -/
theorem callWithin_relooks {depth depth' : Nat} (hdepth : depth ≤ depth') (f : Factory) :
    Mirrors (State.Relooks id lookup) (callWithin depth f) (callWithin depth' f) := by
  induction depth generalizing depth' f with
  | zero => exact fun _ _ _ hne => absurd rfl hne
  | succ depth ih =>
    obtain ⟨depth', rfl⟩ : ∃ n, depth' = n + 1 := ⟨depth' - 1, by omega⟩
    exact f.run_mirrors (State.Relooks.alongside id lookup)
      (State.Relooks.provider (ih (Nat.le_of_succ_le_succ hdepth)))

theorem call_relooks (f : Factory) : Mirrors (State.Relooks id lookup) f.call f.call :=
  fun s t h => .read (callWithin_relooks (h.depthFor_le f) f s t h)

/-- A configuration does not need the lookup of a supplier that is handed out. -/
theorem configure_relooks (n : Node Instance) :
    Mirrors (State.Relooks id lookup) (Assemble.configure n) (Assemble.configure n) := by
  intro s t h
  have hdepth : s.knownKeys.length + 2 ≤ t.knownKeys.length + 2 := by
    simpa [State.depthFor, Factory.keys] using h.depthFor_le (.constant default)
  have hrun := Program.mirrors (State.Relooks.alongside id lookup)
    (State.Relooks.provider (callWithin_relooks hdepth))
    (Program.configureNode n n.name trivial fun _ _ _ _ _ => trivial)
  exact (hrun s t h).of_same rfl rfl

/-! ## Requests -/

theorem MirrorsAt.map {α β : Type} [Stoppable α] [Stoppable β] {R : State → State → Prop}
    {m n : StateM State α} (h : MirrorsAt R m n s t) {f : α → β}
    (hf : ∀ a, stop? (f a) = stop? a) : MirrorsAt R (f <$> m) (f <$> n) s t := by
  intro hne
  have hfollows := h (hf (m s).1 ▸ hne)
  exact ⟨congrArg f hfollows.result, hfollows.state⟩

/-- A request does not need the lookup of a supplier, unless it pulls the supplier and this has not
found its factory. -/
theorem Request.run_relooks (r : Request) (h : s.Relooks id lookup t)
    (hneeds : ∀ supplier, r = .pull supplier → supplier.id = id → s.HasFound id) :
    MirrorsAt (State.Relooks id lookup) r.run r.run s t := by
  have hfree : ∀ {α : Type} [Stoppable α] {m : StateM State α}, SupplierFree m →
      MirrorsAt (State.Relooks id lookup) m m s t :=
    fun hm _ => State.Relooks.follows hm s t h
  cases r with
  | registerConstruction type maker => exact (hfree fun _ _ => rfl).map fun _ => rfl
  | registerScope marker name => exact (hfree (.registerScope marker name)).map fun _ => rfl
  | registerBinding key f source => exact (hfree (.insertBinding _)).map fun _ => rfl
  | installModule m => exact (hfree (.installModule m)).map fun _ => rfl
  | release => exact (hfree fun _ _ => rfl).map fun _ => rfl
  | set properties environment reportUnmatched => exact hfree fun _ _ => rfl
  | readJournal read => exact hfree fun _ _ => rfl
  | getFactory key => exact (hfree (.getFactory key)).map fun _ => rfl
  | getInstance key =>
    exact ((hfree (.getFactory key)).andThen fun f => call_relooks f).map fun _ => rfl
  | call f => exact (call_relooks f s t h).map fun _ => rfl
  | getSupplier key type =>
    have hsupplies := (hfree (.getFactory key)).andThen fun f =>
      ((State.Relooks.newSupplier (.resolved key f) type).lift).mirrors
    exact hsupplies.map fun _ => rfl
  | pull supplier => exact ((h.factoryOf (hneeds supplier rfl)).pull call_relooks).map fun _ => rfl
  | configure n => exact (configure_relooks n s t h).map fun _ => rfl

/-- Nobody asks for the lookup of a supplier: it has found its factory, or none of some requests pulls
it. -/
def State.Unasked (id : Nat) (rs : List Request) (s : State) : Prop :=
  s.HasFound id ∨ ∀ supplier, .pull supplier ∈ rs → supplier.id ≠ id

/-- **Any number of requests.**  A lookup that nobody asks for can be replaced: the requests are answered
as they were, and the states differ in nothing else. -/
theorem Reachable.relooked {held : List Factory} {rs : List Request} (hs : Reachable s held)
    (hrs : s.Allows held rs) (h : s.Relooks id lookup t) (hunasked : s.Unasked id rs) :
    FollowsAt (State.Relooks id lookup) (rs.mapM Request.run) (rs.mapM Request.run) s t := by
  induction rs generalizing s t held with
  | nil => exact .pure h
  | cons r rs ih =>
    have hfirst := r.run_relooks h (fun supplier hr hid => hunasked.resolve_right fun hother =>
      hother supplier (by simp [hr]) hid) (hs.run_returns hrs.1)
    have hlater : (r.run s).2.Unasked id rs := by
      refine hunasked.imp ?_ fun hother supplier hmem => hother supplier (List.mem_cons_of_mem _ hmem)
      exact fun ⟨known, f, hfound⟩ => ⟨known, f, hfound.run_found r⟩
    have hrest := ih (hs.step r hrs.1) hrs.2 hfirst.state hlater
    rw [List.mapM_cons]
    exact hfirst.bind (hrest.bind (.pure hrest.state))

end

end ComponentAssembly

import ComponentAssembly.Proofs.Reinstallation
import ComponentAssembly.Proofs.UnaskedLookups

/-!
# Suppliers look their factory up once

What a supplier keeps is settled by its pulls alone.  `s.foundBy id lookup rs` is the factory of the first
pull among the requests `rs` that finds one, looked up in the state which that pull meets:

    foundBy is none      a pull looks up in the state as it is; an error is given, and nothing is kept
    foundBy is some f    a pull calls f, in the state as it is, and keeps nothing more

The lookup itself is asked for by pulls of the first kind only (`Reachable.relooked`).
-/

namespace ComponentAssembly

open Assemble Stoppable

variable {id : Nat} {lookup : Lookup} {s : State} {held : List Factory} {rs later : List Request}

/-- The factory that an empty supplier finds at a request: the one that its lookup gets, if the request
pulls it. -/
def Request.finds (id : Nat) (lookup : Lookup) (s : State) : Request → Option Factory
  | pull supplier => if supplier.id = id then (findFactory lookup s).1.toOption else none
  | _ => none

/-- The factory that an empty supplier has found after some requests: the first one that it finds. -/
def State.foundBy (id : Nat) (lookup : Lookup) (s : State) : List Request → Option Factory
  | [] => none
  | r :: rs => (r.finds id lookup s).or ((r.run s).2.foundBy id lookup rs)

/-! ## What is kept -/

/-- **One request.**  An empty supplier keeps what it finds. -/
theorem State.Supplies.run_finds (h : s.Supplies id { lookup }) (r : Request) :
    State.Supplies id { lookup, factory := r.finds id lookup s } (r.run s).2 := by
  by_cases hpull : ∃ supplier, r = .pull supplier ∧ supplier.id = id
  · obtain ⟨supplier, rfl, rfl⟩ := hpull
    have hrun := State.pull_empty Factory.call h
    have hsuppliers := (SupplierFree.findFactory lookup).suppliers_eq s
    show State.Supplies _ _ (Assemble.pull Factory.call supplier s).2
    rw [hrun, Request.finds, if_pos rfl]
    match hfound : findFactory lookup s with
    | (.ok f, t) =>
      rw [hfound] at hsuppliers
      have hempty : t.Supplies supplier.id { lookup } := (congrArg (·[supplier.id]?) hsuppliers).trans h
      exact State.Supplies.keeps_giveBy supplier f _ (hempty.fill f)
    | (.error stop, t) =>
      rw [hfound] at hsuppliers
      exact (congrArg (·[supplier.id]?) hsuppliers).trans h
  · have hnone : r.finds id lookup s = none := by
      cases r with
      | pull supplier => exact if_neg fun hid => hpull ⟨supplier, rfl, hid⟩
      | _ => rfl
    rw [hnone]
    exact h.run fun supplier hr hid => hpull ⟨supplier, hr, hid⟩

/-- **Any number of requests.**  An empty supplier keeps the first factory that it finds. -/
theorem State.Supplies.after_finds (h : s.Supplies id { lookup }) (rs : List Request) :
    State.Supplies id { lookup, factory := s.foundBy id lookup rs } (s.after rs) := by
  induction rs generalizing s with
  | nil => exact h
  | cons r rs ih =>
    have hfirst := h.run_finds r
    unfold State.foundBy
    cases hfinds : r.finds id lookup s with
    | some f =>
      rw [hfinds] at hfirst
      exact hfirst.after_found
    | none =>
      rw [hfinds] at hfirst
      exact ih hfirst

/-- What is found first stays so. -/
@[simp]
theorem State.foundBy_append (s : State) (rs later : List Request) :
    s.foundBy id lookup (rs ++ later) =
      (s.foundBy id lookup rs).or ((s.after rs).foundBy id lookup later) := by
  induction rs generalizing s with
  | nil => rfl
  | cons r rs ih =>
    show (r.finds id lookup s).or (State.foundBy id lookup (r.run s).2 (rs ++ later)) = _
    rw [ih, ← Option.or_assoc]
    rfl

/-! ## What is given -/

/-- What is at hand after some requests, for more of them. -/
theorem Reachable.after_append (h : Reachable s held) (hrs : s.Allows held (rs ++ later)) :
    ∃ held', Reachable (s.after rs) held' ∧ (s.after rs).Allows held' later := by
  induction rs generalizing s held with
  | nil => exact ⟨held, h, hrs⟩
  | cons r rs ih => exact ih (h.step r hrs.1) hrs.2

/-- **A supplier looks its factory up once.**  A dependency that is put off is not looked up, and neither
is it when a supplier of it is made, nor by any call that goes on then: such calls leave the supplier
empty, and would do the same with another lookup.

After any requests the supplier keeps the first factory that a pull of it has found, if one has.  If so,
a pull calls this factory, and gives the instance if it is of the right type, or else an error; the
factory stays the same, whatever is requested later.  If not, a pull looks the factory up in the state as
it is.  An error is given, and a factory is kept before it is called.

As long as nobody pulls the supplier, and from the time that it has found its factory, the lookup is not
asked for: whatever it may be, later requests are answered alike and lead to the same states.  (Another
lookup is to name as many keys or more, since the keys bound how deep calls may be nested.) -/
theorem Reachable.looks_up_once (h : Reachable s held) (hempty : s.Supplies id { lookup })
    (hrs : s.Allows held (rs ++ later)) :
    (∀ u p given context, p.deferred → ∃ context', resolveDependency given p context u =
      (.ok (.deferred (.dependency p), context'), u)) ∧
    (∀ u type, ∃ supplier v, State.newSupplier lookup type u = (supplier, v) ∧
      v = { u with suppliers := u.suppliers ++ [{ lookup }] } ∧ v.Supplies supplier.id { lookup } ∧
      ∀ depth f, State.Supplies supplier.id { lookup } (callWithin depth f v).2 ∧
        ∀ other, lookup.keys.length ≤ other.keys.length →
          stop? (callWithin depth f v).1 ≠ some .exhausted →
            callWithin depth f (v.relook supplier.id other) =
              ((callWithin depth f v).1, (callWithin depth f v).2.relook supplier.id other)) ∧
    let t := s.after rs
    let found := s.foundBy id lookup rs
    t.Supplies id { lookup, factory := found } ∧
    (∀ supplier : Supplier, supplier.id = id → pullNow supplier t =
      match found with
      | some f => giveBy Factory.call supplier f t
      | none => match findFactory lookup t with
        | (.ok f, u) => giveBy Factory.call supplier f (State.fillSupplier id f u).2
        | (.error stop, u) => (.error stop, u)) ∧
    (∀ f, found = some f → s.foundBy id lookup (rs ++ later) = some f) ∧
    ((found.isSome ∨ ∀ supplier, .pull supplier ∈ later → supplier.id ≠ id) →
      ∀ other, lookup.keys.length ≤ other.keys.length →
        later.mapM Request.run (t.relook id other) =
          ((later.mapM Request.run t).1, (t.after later).relook id other)) := by
  refine ⟨fun u p given context hdeferred => ?_, fun u type => ?_, ?_⟩
  · unfold resolveDependency
    rw [if_pos hdeferred]
    exact ⟨_, rfl⟩
  · have hnew : State.Supplies u.suppliers.length { lookup } (State.newSupplier lookup type u).2 :=
      List.getElem?_concat_length
    refine ⟨_, _, rfl, rfl, hnew, fun depth f => ⟨?_, fun other hkeys hstop => ?_⟩⟩
    · exact (State.Supplies.watched _ _).keeps_callWithin depth f _ hnew
    · have hsame := callWithin_relooks (Nat.le_refl depth) f _ _ ⟨_, hnew, hkeys, rfl⟩ hstop
      obtain ⟨-, -, -, hstate⟩ := hsame.state
      exact Prod.ext hsame.result hstate
  · intro t found
    have hkept : t.Supplies id { lookup, factory := found } := hempty.after_finds rs
    refine ⟨hkept, ?_, fun f hf => ?_, fun hunasked other hkeys => ?_⟩
    · rintro supplier rfl
      cases hfound : found with
      | some f =>
        rw [hfound] at hkept
        exact State.pull_found hkept
      | none =>
        rw [hfound] at hkept
        exact State.pull_empty Factory.call hkept
    · rw [State.foundBy_append, show s.foundBy id lookup rs = some f from hf, Option.some_or]
    · -- either the supplier has its factory by now, or nobody pulls it later
      obtain ⟨held', hreachable, hlater⟩ := h.after_append hrs
      have hneeds : t.Unasked id later := by
        refine hunasked.imp_left fun hsome => ?_
        obtain ⟨f, hf⟩ := Option.isSome_iff_exists.mp hsome
        exact ⟨lookup, f, hf ▸ hkept⟩
      have hsame := hreachable.relooked hlater ⟨_, hkept, hkeys, rfl⟩ hneeds
      obtain ⟨-, -, -, hstate⟩ := hsame.state
      refine Prod.ext hsame.result (hstate.trans ?_)
      rw [State.mapM_run]

theorem State.waiting_reachable : ∃ held, Reachable State.waiting held :=
  (Reachable.initial _ _ _).after
    (show State.Allows _ [] [.registerConstruction ⟨"Beta"⟩ ⟨"Beta"⟩, .getInstance (.of ⟨"Beta"⟩)]
      from ⟨trivial, trivial, trivial⟩)

/-- A supplier is pulled in vain before the type is registered.  The next pull finds its construction, and
from then on the lookup is not asked for, even where the key is bound to something else. -/
theorem looks_up_once_later :
    let supplier : Supplier := { id := 0, key := .of ⟨"Alpha"⟩, type := ⟨"Alpha"⟩ }
    let rs : List Request :=
      [.pull supplier, .registerConstruction ⟨"Alpha"⟩ ⟨"Alpha"⟩, .pull supplier]
    let later : List Request := [.registerBinding (.of ⟨"Alpha"⟩) (.constant default) "bind", .pull supplier]
    let other : Lookup := .numbered 0 (.of ⟨"Alpha"⟩) 1 (.guarded (.of ⟨"Alpha"⟩) (.constant default))
    (∃ f, State.waiting.foundBy 0 (.dependency .later) rs = some f ∧
      pullNow supplier (State.waiting.after rs) =
        giveBy Factory.call supplier f (State.waiting.after rs)) ∧
    later.mapM Request.run ((State.waiting.after rs).relook 0 other) =
      ((later.mapM Request.run (State.waiting.after rs)).1,
        ((State.waiting.after rs).after later).relook 0 other) := by
  intro supplier rs later other
  obtain ⟨held, h⟩ := State.waiting_reachable
  have hrs : State.waiting.Allows held (rs ++ later) :=
    ⟨trivial, trivial, trivial, .inr rfl, trivial, trivial⟩
  have hfound : (State.waiting.foundBy 0 (.dependency .later) rs).isSome = true := by decide +kernel
  obtain ⟨-, -, -, hpull, -, hunasked⟩ :=
    Reachable.looks_up_once h State.waiting_supplies hrs
  obtain ⟨f, hf⟩ := Option.isSome_iff_exists.mp hfound
  refine ⟨⟨f, hf, ?_⟩, hunasked (.inl hfound) other (by decide)⟩
  have hgives := hpull supplier rfl
  rw [hf] at hgives
  exact hgives

end ComponentAssembly

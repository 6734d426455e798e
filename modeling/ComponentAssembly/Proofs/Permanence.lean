import ComponentAssembly.Proofs.Queries
import ComponentAssembly.Proofs.Registrations

/-!
# Bindings on request are permanent

A key that is bound on request from a source stays so for good.  Only a registration of the key from
the same source that succeeds may put another factory in the place of the old
(`State.bindings_permanent`):

    registerBinding key f source    refused if key is bound on request from another source
    installModule m                 refused as a whole if any key of m is
    all that resolution does        s.Evolves t: bindings stay, and new ones are implicit

What one request makes of the binding of a key is `Request.leaves`; a sequence of requests follows by
induction.
-/

namespace ComponentAssembly

open Assemble Stoppable

/-- Whether a request is to bind a key from a source. -/
def Request.Registers (key : Key) (source : String) : Request → Prop
  | registerBinding k _ origin => k = key ∧ origin = source
  | installModule m => ∃ method ∈ m.methods, key ∈ method.keys ∧ m.sourceOf method = source
  | _ => False

/-! ## What one request may do to a binding -/

/-- What a request makes of the binding of a key: nothing, an implicit binding where there was none, or
one on request, if it registers the key and the key is bound on request from no other source. -/
inductive Request.Leaves (r : Request) (s : State) (key : Key) : Prop
  | same (hsame : (r.run s).2.tables.binding? key = s.tables.binding? key)
  | added {b : Binding} (hunbound : s.tables.binding? key = none)
      (hb : (r.run s).2.tables.binding? key = some b) (himplicit : b.origin = .implicit)
  | registered {source : String} {b : Binding} (hregisters : r.Registers key source)
      (hdone : stop? (r.run s).1 = none)
      (hown : ∀ existing, s.source? key = some existing → existing = source)
      (hb : (r.run s).2.tables.binding? key = some b) (hsource : b.origin = .explicit source)

/-- What only adds to a state leaves every key as it was, or adds an implicit binding of it. -/
theorem Request.Leaves.of_evolves {r : Request} {s : State} (h : s.Evolves (r.run s).2) (key : Key) :
    r.Leaves s key := by
  cases hnow : (r.run s).2.tables.binding? key with
  | some b =>
    rcases h.added key b hnow with hbefore | ⟨hunbound, himplicit⟩
    · exact .same (hnow.trans hbefore.symm)
    · exact .added hunbound hnow himplicit
  | none =>
    cases hbefore : s.tables.binding? key with
    | some b => cases hnow.symm.trans (h.kept key b hbefore)
    | none => exact .same (hnow.trans hbefore.symm)

theorem Request.leaves_registerBinding (s : State) (other : Key) (f : Factory) (origin : String)
    (key : Key) : (Request.registerBinding other f origin).Leaves s key := by
  rcases s.insertBinding_spec other (.guarded other f) origin with
    ⟨existing, -, -, hrun⟩ | ⟨hfree, t, hrun, hbinds⟩
  · exact .same (by simp [hrun])
  · by_cases heq : key = other
    · subst heq
      have hb := hbinds.bound key (List.mem_singleton_self key)
      exact .registered ⟨rfl, rfl⟩ (by simp [hrun, stop?]) (State.conflict_eq_none_iff.mp hfree)
        (by simpa [hrun] using hb) rfl
    · refine .same ?_
      rw [run_registerBinding, hrun]
      exact hbinds.others key (by simpa using heq)

theorem Request.leaves_installModule (s : State) (m : Module) (key : Key) :
    (Request.installModule m).Leaves s key := by
  obtain ⟨u, ⟨log, rfl⟩, ⟨-, hfree, t, hrun, hinstalls⟩ | ⟨cause, -, hrun⟩⟩ := s.installModule_spec m
  · by_cases hkey : ∃ method ∈ m.methods, key ∈ method.keys
    · obtain ⟨method, hmethod, hkey⟩ := hkey
      obtain ⟨kept, -, hbound⟩ := hinstalls.bound method hmethod
      exact .registered ⟨method, hmethod, hkey, rfl⟩ (by simp [hrun, stop?])
        (hfree method hmethod key hkey) (by simpa [hrun] using hbound key hkey) rfl
    · refine .same ?_
      rw [run_installModule, hrun]
      exact hinstalls.others key fun method hmethod hmem => hkey ⟨method, hmethod, hmem⟩
  · exact .same (by simp [hrun])

/-- **One request.**  That is all that a request makes of the binding of a key. -/
theorem Request.leaves (r : Request) (s : State) (key : Key) : r.Leaves s key := by
  by_cases hq : r.isQuery
  · exact .of_evolves (Request.growing_query hq s).toEvolves key
  · cases r with
    | registerBinding other f origin => exact leaves_registerBinding s other f origin key
    | installModule m => exact leaves_installModule s m key
    | registerConstruction type maker => exact .same rfl
    | registerScope marker name => cases name <;> exact .same rfl
    | release => exact .same rfl
    | set properties environment reportUnmatched => exact .same rfl
    | readJournal read => exact .same rfl
    | _ => exact absurd rfl hq

/-- A binding on request stays as it is, or it is replaced from the same source by a registration of
its key that succeeds. -/
theorem Request.run_explicit (r : Request) {s : State} {key : Key} {b : Binding} {source : String}
    (hb : s.tables.binding? key = some b) (hsource : b.origin = .explicit source) :
    (r.run s).2.tables.binding? key = some b ∨ r.Registers key source ∧ stop? (r.run s).1 = none ∧
      ∃ b', (r.run s).2.tables.binding? key = some b' ∧ b'.origin = .explicit source := by
  cases r.leaves s key with
  | same hsame => exact .inl (hsame.trans hb)
  | added hunbound => cases hunbound.symm.trans hb
  | registered hregisters hdone hown hb' hsource' =>
    cases hown source (State.source?_eq_some_iff.mpr ⟨b, hb, hsource⟩)
    exact .inr ⟨hregisters, hdone, _, hb', hsource'⟩

/-! ## Sequences of requests -/

/-- **Any number of requests.**  A binding on request stays bound from its source.  If it is not the
same binding any more, then it is the one that a registration of its key from that source left which
succeeded. -/
theorem State.after_explicit (rs : List Request) {s : State} {key : Key} {b : Binding}
    {source : String} (hb : s.tables.binding? key = some b) (hsource : b.origin = .explicit source) :
    ∃ b', (s.after rs).tables.binding? key = some b' ∧ b'.origin = .explicit source ∧
      (b' = b ∨ ∃ before r rest, rs = before ++ r :: rest ∧ r.Registers key source ∧
        stop? (r.run (s.after before)).1 = none ∧
          (r.run (s.after before)).2.tables.binding? key = some b') := by
  induction rs generalizing s b with
  | nil => exact ⟨b, hb, hsource, .inl rfl⟩
  | cons r rs ih =>
    rcases r.run_explicit hb hsource with hkept | ⟨hregisters, hdone, b₁, hb₁, hsource₁⟩
    · obtain ⟨b', hb', hsource', hsame | ⟨before, r', rest, rfl, hlast⟩⟩ := ih hkept hsource
      · exact ⟨b', hb', hsource', .inl hsame⟩
      · exact ⟨b', hb', hsource', .inr ⟨r :: before, r', rest, rfl, hlast⟩⟩
    · obtain ⟨b', hb', hsource', hsame | ⟨before, r', rest, rfl, hlast⟩⟩ := ih hb₁ hsource₁
      · subst hsame
        exact ⟨_, hb', hsource', .inr ⟨[], r, rs, rfl, hregisters, hdone, hb₁⟩⟩
      · exact ⟨b', hb', hsource', .inr ⟨r :: before, r', rest, rfl, hlast⟩⟩

/-- **Bindings on request are permanent, and resolution only adds implicit ones.**  After any number
of requests, of which each may succeed or fail, a key that was bound on request from a source is so
still, by the same binding or by one that a registration from that source left.  A registration is
refused exactly if its key is bound on request from another source; then nothing changes, and
otherwise the key is bound to the guarded factory whatever it was bound to.  Queries, calls at any
depth and what factories ask for in their midst leave every binding as it is, and the bindings that
they add are implicit, also where they fail. -/
theorem State.bindings_permanent (s : State) :
    (∀ (rs : List Request) (key : Key) (b : Binding) (source : String),
      s.tables.binding? key = some b → b.origin = .explicit source →
        ∃ b', (s.after rs).tables.binding? key = some b' ∧ b'.origin = .explicit source ∧
          (b' = b ∨ ∃ before r rest, rs = before ++ r :: rest ∧ r.Registers key source ∧
            stop? (r.run (s.after before)).1 = none ∧
              (r.run (s.after before)).2.tables.binding? key = some b')) ∧
    (∀ (key : Key) (f : Factory) (source : String),
      (∃ existing, s.source? key = some existing ∧ existing ≠ source ∧
        registerBinding key f source s =
          (.error (.error (.duplicateBinding key existing source)), s)) ∨
      (∀ existing, s.source? key = some existing → existing = source) ∧
        ∃ t, registerBinding key f source s = (.ok (), t) ∧
          s.Binds [key] (.guarded key f) source t) ∧
    (∀ r : Request, r.isQuery → s.Evolves (r.run s).2) ∧
    ∀ depth : Nat,
      (∀ f, s.Evolves (callWithin depth f s).2) ∧
      (∀ key, s.Evolves ((Provider.of (callWithin depth)).ask key s).2) ∧
      (∀ p, s.Evolves ((Provider.of (callWithin depth)).supply p s).2) ∧
      (∀ p type, s.Evolves ((Provider.of (callWithin depth)).draw (.dependency p) type s).2) ∧
      s.Evolves ((Provider.of (callWithin depth)).substitutor s).2 := by
  refine ⟨fun rs key b source hb hsource => State.after_explicit rs hb hsource,
    fun key f source => ?_, fun r hq => (Request.growing_query hq s).toEvolves, fun depth => ?_⟩
  · rw [← State.conflict_eq_none_iff]
    exact s.insertBinding_spec key (.guarded key f) source
  · have hcall := Growing.callWithin depth
    have hanswers := Growing.provider_keeps hcall s
    exact ⟨fun f => (hcall f s).toEvolves,
      fun key => (hanswers.ask key trivial s (.refl s)).1.toEvolves,
      fun p => (Growing.supply hcall p s).toEvolves,
      fun p type => (hanswers.draw p type trivial s (.refl s)).1.toEvolves,
      (Growing.currentSubstitutor hcall s).toEvolves⟩

end ComponentAssembly

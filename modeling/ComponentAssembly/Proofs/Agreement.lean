import ComponentAssembly.Injector.State

/-!
# Steps that agree

A step is compared with a more careful one, which does the same but may halt where the first goes
on.  A careful step halts by `Stop.exhausted`; as long as it does not, both give the same result and
leave the same state:

    Agrees I Q m n   from a state with I, m ends in one with I and a result with Q,
                     and n does what m does unless m is exhausted

With `n` the same as `m` this says what a step keeps and how it ends.  One rule for each way in which
steps are put together is enough to take a program apart.
-/

namespace ComponentAssembly

/-- Results that say by what a step was stopped, if it was. -/
class Stoppable (β : Type) where
  stop? : β → Option Stop

open Stoppable

instance {α : Type} : Stoppable (Except Stop α) where
  stop?
    | .ok _ => none
    | .error stop => some stop

instance {β σ : Type} [Stoppable β] : Stoppable (β × σ) where
  stop? r := stop? r.1

/-- How a step ends: in a result of a kind, or by a stop of a kind. -/
def Ends {α : Type} (P : α → Prop) (E : Stop → Prop) : Except Stop α → Prop
  | .ok a => P a
  | .error stop => E stop

/-- If a step stops, then by a stop of a kind. -/
abbrev StopsBy {α : Type} (E : Stop → Prop) : Except Stop α → Prop :=
  Ends (fun _ => True) E

theorem Ends.mono {α : Type} {P P' : α → Prop} {E E' : Stop → Prop} {r : Except Stop α}
    (h : Ends P E r) (hP : ∀ a, P a → P' a) (hE : ∀ stop, E stop → E' stop) : Ends P' E' r := by
  cases r with
  | ok a => exact hP a h
  | error stop => exact hE stop h

/-! ## Runs of one step after another

A step is run at a state by rewriting: `simp` goes on to the next step once it knows how the one before
it ends.  What is known of a step on the journal goes before what the step is. -/

namespace Assemble

variable {α β : Type} {s t : State}

@[simp]
theorem run_pure (a : α) (s : State) : (pure a : Assemble α) s = (.ok a, s) := rfl

@[simp]
theorem run_bind (m : Assemble α) (f : α → Assemble β) (s : State) :
    (m >>= f : Assemble β) s = match m s with
      | (.ok a, t) => f a t
      | (.error stop, t) => (.error stop, t) := by
  show ExceptT.bindCont f (m s).1 (m s).2 = _
  rcases m s with ⟨r, t⟩
  cases r <;> rfl

@[simp]
theorem run_map (f : α → β) (m : Assemble α) (s : State) :
    (f <$> m : Assemble β) s = match m s with
      | (.ok a, t) => (.ok (f a), t)
      | (.error stop, t) => (.error stop, t) :=
  run_bind m (fun a => pure (f a)) s

@[simp]
theorem run_throw (stop : Stop) (s : State) :
    (throw stop : Assemble α) s = (.error stop, s) := rfl

@[simp]
theorem run_raise (cause : AssemblyError) (s : State) :
    (raise cause : Assemble α) s = (.error (.error cause), s) := rfl

@[simp]
theorem mapError_ok {ε ε' : Type} (f : ε → ε') (a : α) :
    (.ok a : Except ε α).mapError f = .ok a := rfl

@[simp]
theorem mapError_error {ε ε' : Type} (f : ε → ε') (e : ε) :
    (.error e : Except ε α).mapError f = .error (f e) := rfl

@[simp]
theorem run_ofExcept (r : Except AssemblyError α) (s : State) :
    ofExcept r s = (r.mapError .error, s) := by
  cases r <;> rfl

@[simp]
theorem run_get (s : State) : (get : Assemble State) s = (.ok s, s) := rfl

@[simp]
theorem run_lift (m : StateM State α) (s : State) :
    (liftM m : Assemble α) s = (.ok (m s).1, (m s).2) := rfl

@[simp]
theorem run_exceptLift (m : StateM State α) (s : State) :
    (ExceptT.lift m : Assemble α) s = (.ok (m s).1, (m s).2) := rfl

@[simp]
theorem run_mk (m : StateM State (Except Stop α)) (s : State) :
    (ExceptT.mk m : Assemble α) s = m s := rfl

@[simp]
theorem run_attempt (m : Assemble α) (s : State) :
    attempt m s = (match (m s).1 with
      | .ok a => .ok (.ok a)
      | .error (.error cause) => .ok (.error cause)
      | .error .exhausted => .error .exhausted, (m s).2) := by
  show (match (m s).1 with
    | .ok a => pure (.ok (.ok a))
    | .error (.error cause) => pure (.ok (.error cause))
    | .error .exhausted => pure (.error .exhausted) :
      StateM State (Except Stop (Except AssemblyError α))) (m s).2 = _
  rcases m s with ⟨(_ | _) | _, _⟩ <;> rfl

@[simp]
theorem run_run (m : Assemble α) : ExceptT.run m = m := rfl

@[simp low]
theorem run_onJournal (step : StateM Journal α) (s : State) :
    State.onJournal step s =
      ((step s.journal).1, { s with journal := (step s.journal).2 }) := rfl

@[simp low]
theorem run_journal (step : StateM Journal α) (s : State) :
    journal step s = (.ok (step s.journal).1, { s with journal := (step s.journal).2 }) := rfl

section

variable {σ : Type}

@[simp]
theorem run_statePure (a : α) (s : σ) : (pure a : StateM σ α) s = (a, s) := rfl

@[simp]
theorem run_stateBind (m : StateM σ α) (f : α → StateM σ β) (s : σ) :
    (m >>= f : StateM σ β) s = f (m s).1 (m s).2 := rfl

@[simp]
theorem run_stateMap (f : α → β) (m : StateM σ α) (s : σ) :
    (f <$> m : StateM σ β) s = (f (m s).1, (m s).2) := rfl

@[simp]
theorem run_stateGet (s : σ) : (get : StateM σ σ) s = (s, s) := rfl

@[simp]
theorem run_stateModify (f : σ → σ) (s : σ) : (modify f : StateM σ PUnit) s = (⟨⟩, f s) := rfl

end

@[simp]
theorem get_bind (f : State → Assemble β) (s : State) : (get >>= f : Assemble β) s = f s s := rfl

theorem bind_run {σ : Type} {s t : σ} {m : StateM σ α} {f : α → StateM σ β} {a : α}
    (h : m s = (a, t)) : (m >>= f) s = f a t := by
  simp [h]

theorem bind_ok {m : Assemble α} {f : α → Assemble β} {a : α} (h : m s = (.ok a, t)) :
    (m >>= f : Assemble β) s = f a t := by
  simp [h]

theorem bind_error {m : Assemble α} {f : α → Assemble β} {stop : Stop}
    (h : m s = (.error stop, t)) : (m >>= f : Assemble β) s = (.error stop, t) := by
  simp [h]

theorem stateBind_same {m m' : StateM State α} (h : m s = m' s) (f : α → StateM State β) :
    (m >>= f : StateM State β) s = (m' >>= f : StateM State β) s := by
  show f (m s).1 (m s).2 = f (m' s).1 (m' s).2
  rw [h]

theorem bind_same {m m' : Assemble α} (h : m s = m' s) (f : α → Assemble β) :
    (m >>= f : Assemble β) s = (m' >>= f : Assemble β) s :=
  stateBind_same h (ExceptT.bindCont f)

theorem map_same {m m' : Assemble α} (h : m s = m' s) (f : α → β) :
    (f <$> m : Assemble β) s = (f <$> m' : Assemble β) s :=
  bind_same h _

end Assemble

/-! ## Agreement -/

/-- A step that cannot stop keeps `I`. -/
def Keeps {α : Type} (I : State → Prop) (m : StateM State α) : Prop :=
  ∀ s, I s → I (m s).2

namespace Keeps

variable {α β : Type} {I : State → Prop}

theorem bind {m : StateM State α} {f : α → StateM State β} (h : Keeps I m)
    (hf : ∀ a, Keeps I (f a)) : Keeps I (m >>= f) :=
  fun s hI => hf _ _ (h s hI)

theorem andThen {m : Assemble α} {f : α → Assemble β} (h : Keeps I m) (hf : ∀ a, Keeps I (f a)) :
    Keeps I (m >>= f : Assemble β) := by
  intro s hI
  have hm := h s hI
  cases hres : m s with
  | mk r t =>
    rw [hres] at hm
    cases r with
    | ok a =>
      rw [Assemble.bind_ok hres]
      exact hf a t hm
    | error stop =>
      rw [Assemble.bind_error hres]
      exact hm

/-- A loop of steps that may fail. -/
theorem each {as : List α} {init : β} {body : α → β → Assemble (ForInStep β)}
    (h : ∀ a ∈ as, ∀ b, Keeps I (body a b)) : Keeps I (ForIn.forIn as init body : Assemble β) := by
  induction as generalizing init with
  | nil => exact fun _ hI => hI
  | cons a rest ih =>
    rw [List.forIn_cons]
    refine andThen (h a List.mem_cons_self init) fun step => ?_
    cases step with
    | done b => exact fun _ hI => hI
    | yield b => exact ih fun a ha => h a (List.mem_cons_of_mem _ ha)

end Keeps

/-- What it means at one state that `n` agrees with the careful `m`. -/
structure AgreesAt {β : Type} [Stoppable β] (I : State → Prop) (Q : β → Prop)
    (m n : StateM State β) (s : State) : Prop where
  keeps : I (m s).2
  result : Q (m s).1
  same : stop? (m s).1 ≠ some .exhausted → n s = m s

/-- `m` keeps `I` and ends in `Q`, and `n` does what `m` does unless `m` is exhausted. -/
def Agrees {β : Type} [Stoppable β] (I : State → Prop) (Q : β → Prop) (m n : StateM State β) : Prop :=
  ∀ s, I s → AgreesAt I Q m n s

/-! ## Rules for steps on the state -/

section

variable {α β γ : Type} [Stoppable β] [Stoppable γ] {I I' : State → Prop} {Q Q' : β → Prop}
  {R : γ → Prop}

theorem AgreesAt.mono {m n : StateM State β} {s : State} (h : AgreesAt I Q m n s)
    (hI : ∀ t, I t → I' t) (hQ : ∀ b, Q b → Q' b) : AgreesAt I' Q' m n s :=
  ⟨hI _ h.keeps, hQ _ h.result, h.same⟩

/-- Two steps that agree with careful ones agree with each other's, if these are not exhausted. -/
theorem AgreesAt.bridge {m m' n n' : StateM State β} {s : State} (hmn : AgreesAt I Q m n s)
    (hmn' : AgreesAt I Q m n' s) (h : AgreesAt I Q m' n' s)
    (hQ : ∀ b, Q b → stop? b ≠ some .exhausted) : AgreesAt I Q m' n s where
  keeps := h.keeps
  result := h.result
  same _ := by
    rw [hmn.same (hQ _ hmn.result), ← hmn'.same (hQ _ hmn'.result), h.same (hQ _ h.result)]

/-- What a careful step does may be done by another. -/
theorem AgreesAt.of_eq {m m' n : StateM State β} {s : State} (hm : m s = m' s)
    (h : AgreesAt I Q m' n s) : AgreesAt I Q m n s :=
  ⟨hm ▸ h.keeps, hm ▸ h.result, fun hne => hm ▸ h.same (hm ▸ hne)⟩

/-- A step that agrees with one that is not exhausted does the same. -/
theorem AgreesAt.self {m n : StateM State β} {s : State} (h : AgreesAt I Q m n s)
    (hQ : ∀ b, Q b → stop? b ≠ some .exhausted) : AgreesAt I Q n n s := by
  have hsame := h.same (hQ _ h.result)
  exact ⟨hsame ▸ h.keeps, hsame ▸ h.result, fun _ => rfl⟩

/-- A result in another form that says by what a step was stopped. -/
theorem AgreesAt.map {m n : StateM State β} {s : State} (h : AgreesAt I Q m n s) {f : β → γ}
    (hstop : ∀ b, stop? (f b) = stop? b) (hf : ∀ b, Q b → R (f b)) :
    AgreesAt I R (f <$> m) (f <$> n) s := by
  refine ⟨h.keeps, hf _ h.result, fun hne => ?_⟩
  have hsame : n s = m s := h.same fun hex => hne ((hstop _).trans hex)
  show (f (n s).1, (n s).2) = _
  rw [hsame]
  rfl

/-- A first step after whose exhaustion the next step gives up. -/
theorem AgreesAt.bind {m n : StateM State β} {f g : β → StateM State γ} {s : State}
    (h : AgreesAt I Q m n s) (hf : ∀ b, Q b → Agrees I R (f b) (g b))
    (hstop : ∀ b s, stop? b = some .exhausted → stop? (f b s).1 = some .exhausted) :
    AgreesAt I R (m >>= f) (n >>= g) s := by
  obtain ⟨hkeeps, hresult, hsame⟩ := h
  obtain ⟨hkeeps', hresult', hsame'⟩ := hf _ hresult _ hkeeps
  refine ⟨hkeeps', hresult', fun hne => ?_⟩
  have hfirst : n s = m s := hsame fun hex => hne (hstop _ _ hex)
  show (let (b, t) := n s; g b t) = _
  rw [hfirst]
  exact hsame' hne

namespace Agrees

theorem pure {b : β} (h : Q b) : Agrees I Q (pure b) (pure b) :=
  fun _ hI => ⟨hI, h, fun _ => rfl⟩

theorem bind {m n : StateM State β} {f g : β → StateM State γ} (h : Agrees I Q m n)
    (hf : ∀ b, Q b → Agrees I R (f b) (g b))
    (hstop : ∀ b s, stop? b = some .exhausted → stop? (f b s).1 = some .exhausted) :
    Agrees I R (m >>= f) (n >>= g) :=
  fun s hI => (h s hI).bind hf hstop

end Agrees

end

/-! ## Rules for steps that may fail -/

section

variable {α β : Type} {I : State → Prop} {E : Stop → Prop} {P : α → Prop} {R : β → Prop} {s t : State}

namespace AgreesAt

/-- One step after another. -/
theorem andThen {m n : Assemble α} {f g : α → Assemble β} (h : AgreesAt I (Ends P E) m n s)
    (hf : ∀ a, P a → Agrees I (Ends R E) (f a) (g a)) :
    AgreesAt I (Ends R E) (m >>= f : Assemble β) (n >>= g : Assemble β) s := by
  show AgreesAt (β := Except Stop β) I (Ends R E)
    (Bind.bind (m := StateM State) (α := Except Stop α) m (ExceptT.bindCont f))
    (Bind.bind (m := StateM State) (α := Except Stop α) n (ExceptT.bindCont g)) s
  refine h.bind ?_ ?_
  · intro r hr
    cases r with
    | ok a => exact hf a hr
    | error stop => exact Agrees.pure hr
  · intro r s hr
    cases r with
    | ok a => cases hr
    | error stop => exact hr

/-- A first step that is known to return. -/
theorem after {m : Assemble α} {f g : α → Assemble β} {a : α} (hm : m s = (.ok a, t))
    (h : AgreesAt I (Ends R E) (f a) (g a) t) :
    AgreesAt I (Ends R E) (m >>= f : Assemble β) (m >>= g : Assemble β) s := by
  have hf : (m >>= f : Assemble β) s = f a t := Assemble.bind_ok hm
  have hg : (m >>= g : Assemble β) s = g a t := Assemble.bind_ok hm
  exact ⟨hf ▸ h.keeps, hf ▸ h.result, fun hne => by rw [hf, hg]; exact h.same (hf ▸ hne)⟩

/-- A first step that is known to stop. -/
theorem stopped {m : Assemble α} {f g : α → Assemble β} {stop : Stop} (hm : m s = (.error stop, t))
    (hI : I t) (hE : E stop) :
    AgreesAt I (Ends R E) (m >>= f : Assemble β) (m >>= g : Assemble β) s := by
  have hf : (m >>= f : Assemble β) s = (.error stop, t) := Assemble.bind_error hm
  have hg : (m >>= g : Assemble β) s = (.error stop, t) := Assemble.bind_error hm
  exact ⟨by rw [hf]; exact hI, by rw [hf]; exact hE, fun _ => by rw [hf, hg]⟩

/-- A careful step that halts. -/
theorem halted {m n : Assemble α} (hm : m s = (.error .exhausted, t)) (hI : I t) (hE : E .exhausted) :
    AgreesAt I (Ends P E) m n s :=
  ⟨by rw [hm]; exact hI, by rw [hm]; exact hE, fun hne => absurd (by rw [hm]; rfl) hne⟩

/-- A step each error of which becomes a result. -/
theorem attempt {m n : Assemble α} (h : AgreesAt I (Ends P E) m n s) :
    AgreesAt I (StopsBy fun stop => stop = .exhausted ∧ E stop) (Assemble.attempt m)
      (Assemble.attempt n) s := by
  refine h.bind ?_ ?_
  · intro r hr
    match r, hr with
    | .ok a, _ => exact Agrees.pure trivial
    | .error (.error cause), _ => exact Agrees.pure trivial
    | .error .exhausted, hr => exact Agrees.pure ⟨rfl, hr⟩
  · intro r s hr
    match r, hr with
    | .error .exhausted, _ => rfl

end AgreesAt

namespace Agrees

theorem ok {a : α} (h : P a) :
    Agrees I (Ends P E) (Pure.pure a : Assemble α) (Pure.pure a : Assemble α) :=
  fun _ hI => ⟨hI, h, fun _ => rfl⟩

theorem throw {stop : Stop} (h : E stop) :
    Agrees I (Ends P E) (MonadExcept.throw stop : Assemble α) (MonadExcept.throw stop : Assemble α) :=
  fun _ hI => ⟨hI, h, fun _ => rfl⟩

theorem raise {cause : AssemblyError} (h : E (.error cause)) :
    Agrees I (Ends P E) (Assemble.raise cause : Assemble α) (Assemble.raise cause : Assemble α) :=
  throw h

theorem ofExcept {r : Except AssemblyError α} (hok : ∀ a, r = .ok a → P a)
    (herror : ∀ cause, r = .error cause → E (.error cause)) :
    Agrees I (Ends P E) (Assemble.ofExcept r) (Assemble.ofExcept r) := by
  cases r with
  | ok a => exact ok (hok a rfl)
  | error cause => exact raise (herror cause rfl)

theorem andThen {m n : Assemble α} {f g : α → Assemble β} (h : Agrees I (Ends P E) m n)
    (hf : ∀ a, P a → Agrees I (Ends R E) (f a) (g a)) :
    Agrees I (Ends R E) (m >>= f : Assemble β) (n >>= g : Assemble β) :=
  fun s hI => (h s hI).andThen hf

/-- A first step that reads the state. -/
theorem read {f g : State → Assemble β} (h : ∀ s, I s → AgreesAt I (Ends R E) (f s) (g s) s) :
    Agrees I (Ends R E) (MonadState.get >>= f : Assemble β) (MonadState.get >>= g : Assemble β) := by
  intro s hI
  obtain ⟨hkeeps, hresult, hsame⟩ := h s hI
  exact ⟨hkeeps, hresult, hsame⟩

/-- A step that cannot stop, lifted. -/
theorem lift {m : StateM State α} (hm : Keeps I m) :
    Agrees I (StopsBy E) (ExceptT.lift m : Assemble α) (ExceptT.lift m : Assemble α) :=
  fun s hI => ⟨hm s hI, trivial, fun _ => rfl⟩

end Agrees

end

end ComponentAssembly

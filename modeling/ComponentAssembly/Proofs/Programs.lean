import ComponentAssembly.Configure
import ComponentAssembly.Proofs.Agreement
import ComponentAssembly.Proofs.Layers
import ComponentAssembly.Proofs.Visits

/-!
# Steps are programs that ask a provider

Takes, stages, resolution, recipes and configuration depend on the injector through what they ask
their provider for; besides they only write the journal, count, add suppliers and read the state.

    Program r Q (fun p => construct p c node path)      and so on, one lemma for each step

A `Remit` says what a program may do: which dependencies and keys it asks for, how it stops, which
components it notes changes of, and whether it reports failed validations.  On the way it is kept
track of which dependencies the deferred arguments stand for, since a take may ask for them later.

What the answers to the questions and the few steps of its own have in common, all programs have, by
one induction on `Program`.
-/

namespace ComponentAssembly

open Assemble Stoppable

/-- The component that an event is about. -/
def Event.component? : Event → Option ComponentName
  | .created component => some component
  | .assigned component _ => some component
  | .built component => some component
  | _ => none

/-- What a program may do. -/
structure Remit where
  /-- How it may stop. -/
  stops : Stop → Prop
  /-- The dependencies that it may ask for. -/
  points : InjectionPoint → Prop
  /-- The keys that it may ask for. -/
  keys : Key → Prop
  /-- The components that it may note changes of. -/
  own : ComponentName → Prop
  /-- Whether it may report failed validations. -/
  fails : Prop
  /-- What it may count on of a state that it reads. -/
  reads : State → Prop
  plain : ∀ cause : AssemblyError, cause.IsPlain → stops (.error cause)

def Remit.free : Remit where
  stops _ := True
  points _ := True
  keys _ := True
  own _ := True
  fails := True
  reads _ := True
  plain _ _ := trivial

/-- What programs look at is the same in two states: nothing that a program changes. -/
structure State.SameSetting (s t : State) : Prop where
  declarations : t.declarations = s.declarations
  properties : t.properties = s.properties
  environment : t.environment = s.environment
  reportUnmatched : t.reportUnmatched = s.reportUnmatched
  alive : t.alive = s.alive

theorem State.SameSetting.declared {s t : State} (h : s.SameSetting t) : t.declared = s.declared := by
  funext type
  simp only [State.declared, h.declarations]

theorem State.SameSetting.property? {s t : State} (h : s.SameSetting t) :
    t.property? = s.property? := by
  funext name
  simp only [State.property?, h.properties, h.environment]

/-- Steps that ask for nothing, look at nothing, and cannot stop. -/
inductive Step (r : Remit) : {α : Type} → (α → Prop) → StateM State α → Prop
  | pure {α : Type} {Q : α → Prop} {a : α} (h : Q a) : Step r Q (Pure.pure a)
  | bind {α β : Type} {P : α → Prop} {Q : β → Prop} {m : StateM State α} {f : α → StateM State β}
      (h : Step r P m) (hf : ∀ a, P a → Step r Q (f a)) : Step r Q (m >>= f)
  | journal {α : Type} {P : α → Prop} {step : StateM Journal α} (hquiet : Journal.Quiet step)
      (hstep : Yields P step) : Step r P (State.onJournal step)
  | failure (h : r.fails) (path message : String) :
      Step r (fun _ => True) (reportAt .validationFailure path message)
  | note {event : Event} (h : ∀ n ∈ event.component?, r.own n) :
      Step r (fun _ => True) (State.onJournal (Journal.note event))
  | component (type : TypePath) :
      Step r (r.own ·.name) (State.onJournal (Journal.newComponent type))
  | trial (owner message : String) : Step r (fun _ => True) (State.nextTrial owner message)
  | number (name : String) : Step r (fun _ => True) (State.nextNumber name)
  | supplier {lookup : Lookup} (type : TypePath)
      (h : lookup.Among r.points ∨ ∃ key i, lookup = .resolved key (.constant i)) :
      Step r (fun _ => True) (State.newSupplier lookup type)

/-- Steps that are put together from questions to a provider, from looks at the setting of a state, and
from steps that ask for nothing.  An answer that nothing is left to be tried ends them.  Their results
are in `Q`. -/
inductive Program (r : Remit) :
    {α : Type} → [Stoppable α] → (α → Prop) → (Provider → StateM State α) → Prop
  | pure {α : Type} [Stoppable α] {Q : α → Prop} {a : α} (h : Q a) :
      Program r Q fun _ => Pure.pure a
  | bind {α β : Type} [Stoppable α] [Stoppable β] {P : α → Prop} {Q : β → Prop}
      {m : Provider → StateM State α} {f : Provider → α → StateM State β} (h : Program r P m)
      (hf : ∀ a, P a → Program r Q fun p => f p a)
      (hstop : ∀ p a s, stop? a = some .exhausted → stop? (f p a s).1 = some .exhausted) :
      Program r Q fun p => m p >>= f p
  | after {α β : Type} [Stoppable β] {P : α → Prop} {Q : β → Prop} {m : StateM State α}
      {f : Provider → α → StateM State β} (h : Step r P m)
      (hf : ∀ a, P a → Program r Q fun p => f p a) : Program r Q fun p => m >>= f p
  | look {β : Type} [Stoppable β] {Q : β → Prop} {f : Provider → State → StateM State β}
      (hsame : ∀ p s t, s.SameSetting t → f p t = f p s)
      (hf : ∀ s, r.reads s → Program r Q fun p => f p s) : Program r Q fun p => get >>= f p
  | substitutor : Program r (StopsBy r.stops) (·.substitutor)
  | supply {x : InjectionPoint} (hx : r.points x) (heager : x.isEager) :
      Program r (StopsBy r.stops) (·.supply x)
  | ask {key : Key} (hkey : r.keys key) : Program r (StopsBy r.stops) (·.ask key)
  | draw {x : InjectionPoint} (hx : r.points x) (type : TypePath) :
      Program r (StopsBy r.stops) (·.draw (.dependency x) type)

/-- The component of a stage is among some. -/
def Stage.IsOf (stage : Stage) (own : ComponentName → Prop) : Prop :=
  ∀ component ∈ stage.component, own component.name

/-- The arguments of points are those that the points were resolved to. -/
theorem Arguments.among_ofPoints {points : InjectionPoint → Prop} (owner : String)
    (ps : List InjectionPoint) {values : List Argument}
    (hvalues : ∀ v ∈ values, v.Among points) :
    ∀ entry ∈ (Arguments.ofPoints owner ps values).entries, entry.argument.Among points := by
  intro entry hentry
  obtain ⟨⟨p, v⟩, hmem, rfl⟩ := List.mem_map.mp hentry
  exact hvalues v (List.of_mem_zip hmem).2

namespace Step

variable {α β : Type} {r : Remit}

theorem report {kind : DiagnosticKind} (h : kind ≠ .validationFailure) (path message : String) :
    Step r (fun _ => True) (reportAt kind path message) :=
  .journal (.report h path message) fun _ => trivial

theorem forIn {as : List α} {init : β} {body : α → β → StateM State (ForInStep β)}
    (h : ∀ a b, Step r (fun _ => True) (body a b)) :
    Step r (fun _ => True) (ForIn.forIn as init body) := by
  induction as generalizing init with
  | nil => exact .pure trivial
  | cons a rest ih =>
    rw [List.forIn_cons]
    refine .bind (h a init) fun step _ => ?_
    cases step with
    | done b => exact .pure trivial
    | yield b => exact ih

theorem reportLeftovers (n : Node Instance) (path : String) :
    Step r (fun _ => True) (Assemble.reportLeftovers n path) := by
  refine .bind (forIn fun _ _ => .bind (report (by decide) _ _) fun _ _ => .pure trivial)
    fun _ _ => ?_
  refine .bind (forIn fun child _ => ?_) fun _ _ => .pure trivial
  split
  · exact .bind (report (by decide) _ _) fun _ _ => .pure trivial
  · exact .pure trivial

end Step

namespace Program

variable {α β : Type} {r : Remit} {P : α → Prop} {R : β → Prop}

/-! ## Rules for steps that may fail -/

theorem ite [Stoppable α] {c : Prop} [Decidable c] {m n : Provider → StateM State α}
    (hm : c → Program r P m) (hn : ¬ c → Program r P n) :
    Program r P fun p => if c then m p else n p := by
  split
  · next hc => exact hm hc
  · next hc => exact hn hc

theorem ok {a : α} (h : P a) : Program r (Ends P r.stops) fun _ => (Pure.pure a : Assemble α) :=
  .pure h

theorem raise {cause : AssemblyError} (h : cause.IsPlain) :
    Program r (Ends P r.stops) fun _ => (Assemble.raise cause : Assemble α) :=
  .pure (r.plain cause h)

theorem ofExcept {result : Except AssemblyError α} (hok : ∀ a, result = .ok a → P a)
    (herror : ∀ cause, result = .error cause → cause.IsPlain) :
    Program r (Ends P r.stops) fun _ => Assemble.ofExcept result := by
  cases result with
  | ok a => exact ok (hok a rfl)
  | error cause => exact raise (herror cause rfl)

theorem andThen {m : Provider → Assemble α} {f : Provider → α → Assemble β}
    (h : Program r (Ends P r.stops) m) (hf : ∀ a, P a → Program r (Ends R r.stops) fun p => f p a) :
    Program r (Ends R r.stops) fun p => (m p >>= f p : Assemble β) := by
  refine .bind (f := fun p => ExceptT.bindCont (f p)) h ?_ ?_
  · intro result hresult
    cases result with
    | ok a => exact hf a hresult
    | error stop => exact .pure hresult
  · intro p result s hstop
    cases result with
    | ok a => cases hstop
    | error stop => exact hstop

/-- A step that cannot stop, lifted. -/
theorem lift {m : StateM State α} {f : Provider → α → Assemble β} (h : Step r P m)
    (hf : ∀ a, P a → Program r (Ends R r.stops) fun p => f p a) :
    Program r (Ends R r.stops) fun p => (ExceptT.lift m >>= f p : Assemble β) :=
  .after h hf

/-- A lifted step after whose exhaustion the next step gives up. -/
theorem liftThen [Stoppable α] {m : Provider → StateM State α} {f : Provider → α → Assemble β}
    (h : Program r P m) (hf : ∀ a, P a → Program r (Ends R r.stops) fun p => f p a)
    (hstop : ∀ p a s, stop? a = some .exhausted → stop? (f p a s).1 = some .exhausted) :
    Program r (Ends R r.stops) fun p => (ExceptT.lift (m p) >>= f p : Assemble β) :=
  .bind h hf hstop

/-- A lifted step at the end. -/
theorem lifted {m : StateM State α} (h : Step r P m) :
    Program r (Ends P r.stops) fun _ => (ExceptT.lift m : Assemble α) := by
  show Program r _ fun _ => (m >>= fun a => Pure.pure (.ok a) : StateM State (Except Stop α))
  exact .after h fun _ ha => .pure ha

/-- A first step that looks at the setting. -/
theorem read {f : Provider → State → Assemble β} (hsame : ∀ p s t, s.SameSetting t → f p t = f p s)
    (hf : ∀ s, r.reads s → Program r (Ends R r.stops) fun p => f p s) :
    Program r (Ends R r.stops) fun p => (get >>= f p : Assemble β) :=
  look (β := Except Stop β) (f := f) hsame hf

/-- A step each error of which becomes a result. -/
theorem attempt {m : Provider → Assemble α} (h : Program r (Ends P r.stops) m) :
    Program r (StopsBy r.stops) fun p => Assemble.attempt (m p) := by
  refine .bind h ?_ ?_
  · intro result hresult
    match result, hresult with
    | .ok a, _ => exact .pure trivial
    | .error (.error cause), _ => exact .pure trivial
    | .error .exhausted, hresult => exact .pure hresult
  · intro p result s hstop
    match result, hstop with
    | .error .exhausted, _ => rfl

/-- Steps for the members of a list, one after the other. -/
theorem mapM {m : Provider → α → Assemble β} {as : List α}
    (h : ∀ a ∈ as, Program r (StopsBy r.stops) fun p => m p a) :
    Program r (StopsBy r.stops) fun p => (as.mapM (m p) : Assemble (List β)) := by
  induction as with
  | nil =>
    simp only [List.mapM_nil]
    exact ok trivial
  | cons a rest ih =>
    simp only [List.mapM_cons]
    refine andThen (h a List.mem_cons_self) fun _ _ => ?_
    exact andThen (ih fun b hb => h b (List.mem_cons_of_mem _ hb)) fun _ _ => ok trivial

/-! ## Steps that ask for nothing -/

theorem allocate (value : Value) :
    Program r (StopsBy r.stops) fun _ => Assemble.allocate value :=
  lifted (.journal (.allocate value) fun _ => trivial)

theorem duplicate (i : Instance) : Program r (StopsBy r.stops) fun _ => Assemble.duplicate i :=
  allocate _

theorem downcast (i : Instance) (type : TypePath) (path : String) :
    Program r (StopsBy r.stops) fun _ => Assemble.ofExcept (i.downcast type path) := by
  refine ofExcept (fun _ _ => trivial) fun cause hcause chain => ?_
  unfold Instance.downcast at hcause
  split at hcause
  · cases hcause
  · cases hcause
    simp

theorem checkFault (owner : String) (fault : Option Fault) :
    Program r (StopsBy r.stops) fun _ => Assemble.checkFault owner fault := by
  unfold Assemble.checkFault
  cases fault with
  | none => exact ok trivial
  | some f =>
    refine lift (.trial owner f.message) fun before _ => ite (fun _ => raise ?_) fun _ => ok trivial
    intro chain
    split <;> simp

theorem takeAll (path : String) (argument : Argument) (type : TypePath) :
    Program r (StopsBy r.stops) fun _ => Assemble.takeAll path argument type := by
  cases argument with
  | objects is => exact mapM fun i _ => downcast i type path
  | object i => exact andThen (downcast i type path) fun _ _ => ok trivial
  | scalar raw i => exact andThen (downcast i type path) fun _ _ => ok trivial
  | absent => exact ok trivial
  | deferred lookup => exact raise fun chain => by simp

theorem takeSupplier (path : String) (entry : ArgumentEntry) (type : TypePath)
    (hentry : entry.argument.Among r.points) :
    Program r (StopsBy r.stops) fun _ => Assemble.takeSupplier path entry type := by
  unfold Assemble.takeSupplier
  split
  · next lookup hlookup =>
    rw [hlookup] at hentry
    exact lifted (.supplier type (.inl hentry))
  · next i _ => exact lifted (.supplier type (.inr ⟨_, i, rfl⟩))
  · exact raise fun chain => by simp

/-! ## Takes -/

theorem takeOne (path : String) {argument : Argument} (type : TypePath)
    (hargument : argument.Among r.points) :
    Program r (StopsBy r.stops) fun p => Assemble.takeOne p path argument type := by
  have hmissing : (AssemblyError.missingValue path).IsPlain := fun chain => by simp
  match argument, hargument with
  | .object i, _ => exact downcast i type path
  | .scalar _ i, _ => exact downcast i type path
  | .objects [i], _ => exact downcast i type path
  | .deferred (.dependency x), hx => exact .draw hx type
  | .objects [], _ => exact raise hmissing
  | .objects (_ :: _ :: _), _ => exact raise hmissing
  | .absent, _ => exact raise hmissing

/-! ## Consuming arguments -/

/-- Programs that consume arguments, from any queue whose arguments they may ask for. -/
def Consumes (r : Remit) {α : Type} (P : α → Prop) (m : Provider → Consume α) : Prop :=
  ∀ a : Arguments, (∀ entry ∈ a.entries, entry.argument.Among r.points) →
    Program r (fun result => Ends P r.stops result.1 ∧
      ∀ entry ∈ result.2.entries, entry.argument.Among r.points) fun p => (m p).run a

namespace Consumes

theorem pure {a : α} (h : P a) : Consumes r P fun _ => (Pure.pure a : Consume α) :=
  fun _ hqueue => .pure ⟨h, hqueue⟩

theorem bind {m : Provider → Consume α} {f : Provider → α → Consume β} (h : Consumes r P m)
    (hf : ∀ a, P a → Consumes r R fun p => f p a) :
    Consumes r R fun p => (m p >>= f p : Consume β) := by
  intro queue hqueue
  refine Program.bind (f := fun p result => ExceptT.bindCont (f p) result.1 result.2)
    (h queue hqueue) ?_ ?_
  · rintro ⟨result, left⟩ ⟨hresult, hleft⟩
    cases result with
    | ok a => exact hf a hresult left hleft
    | error stop => exact .pure ⟨hresult, hleft⟩
  · rintro p ⟨result, left⟩ s hstop
    cases result with
    | ok a => cases hstop
    | error stop => exact hstop

/-- A first step that looks at the queue. -/
theorem look {f : Provider → Arguments → Consume β} (h : ∀ queue, Consumes r R fun p => f p queue) :
    Consumes r R fun p => (getThe Arguments >>= f p : Consume β) :=
  fun queue hqueue => h queue queue hqueue

theorem lift {m : Provider → Assemble α} (h : Program r (Ends P r.stops) m) :
    Consumes r P fun p => Consume.lift (m p) := by
  intro queue hqueue
  refine .bind h (fun result hresult => .pure ⟨hresult, hqueue⟩) fun p result s hstop => hstop

theorem next : Consumes r (·.argument.Among r.points) fun _ => Consume.next := by
  rintro ⟨owner, entries⟩ hqueue
  cases entries with
  | nil => exact .pure ⟨r.plain _ fun chain => by simp [Arguments.exhausted], hqueue⟩
  | cons entry rest =>
    obtain ⟨hentry, hrest⟩ := List.forall_mem_cons.mp hqueue
    exact .pure ⟨hentry, hrest⟩

theorem skip : Consumes r (fun _ => True) fun _ => Consume.skip :=
  next.bind fun _ _ => .pure trivial

theorem pathOf (entry : ArgumentEntry) : Consumes r (fun _ => True) fun _ => Consume.pathOf entry :=
  look fun _ => .pure trivial

/-- The next argument, and where it belongs. -/
theorem nextAt {f : Provider → ArgumentEntry → String → Consume β}
    (h : ∀ entry path, entry.argument.Among r.points → Consumes r R fun p => f p entry path) :
    Consumes r R fun p => (do
      let entry ← Consume.next
      f p entry (← Consume.pathOf entry) : Consume β) :=
  next.bind fun entry hentry => (pathOf entry).bind fun path _ => h entry path hentry

section

variable (type : TypePath)

theorem one : Consumes r (fun _ => True) fun p => Consume.one p type :=
  nextAt fun _ path hentry => lift (takeOne path type hentry)

theorem optional : Consumes r (fun _ => True) fun p => Consume.optional p type := by
  refine look fun queue => ?_
  split
  · exact skip.bind fun _ _ => .pure trivial
  · exact (one type).bind fun _ _ => .pure trivial

theorem value : Consumes r (fun _ => True) fun p => Consume.value p type :=
  (one type).bind fun i _ => lift (duplicate i)

theorem optionalValue : Consumes r (fun _ => True) fun p => Consume.optionalValue p type := by
  refine (optional type).bind fun result _ => ?_
  cases result with
  | none => exact .pure trivial
  | some i => exact (lift (duplicate i)).bind fun _ _ => .pure trivial

theorem all : Consumes r (fun _ => True) fun _ => Consume.all type :=
  nextAt fun entry path _ => lift (takeAll path entry.argument type)

theorem allValues : Consumes r (fun _ => True) fun _ => Consume.allValues type :=
  (all type).bind fun _ _ => lift (mapM fun i _ => duplicate i)

theorem supplier : Consumes r (fun _ => True) fun _ => Consume.supplier type :=
  nextAt fun entry path hentry => lift (takeSupplier path entry type hentry)

end

theorem perform (t : Take) : Consumes r (fun _ => True) fun p => t.perform p := by
  cases t with
  | typed mode type =>
    cases mode with
    | object => exact (one type).bind fun _ _ => .pure trivial
    | optional => exact (optional type).bind fun _ _ => .pure trivial
    | value => exact (value type).bind fun _ _ => .pure trivial
    | optionalValue => exact (optionalValue type).bind fun _ _ => .pure trivial
    | all => exact (all type).bind fun _ _ => .pure trivial
    | allValues => exact (allValues type).bind fun _ _ => .pure trivial
    | supplier => exact (supplier type).bind fun _ _ => .pure trivial
  | skip => exact skip.bind fun _ _ => .pure trivial
  | remaining => exact look fun _ => .pure trivial
  | nextIsAbsent => exact look fun _ => .pure trivial

end Consumes

/-! ## Stages -/

theorem fill (label : String) (takes : List FieldTake) (component : Component) (a : Arguments)
    (ha : ∀ entry ∈ a.entries, entry.argument.Among r.points) :
    Program r (fun result => StopsBy r.stops result.1 ∧ result.2.1.name = component.name) fun p =>
      Assemble.fill p label takes component a := by
  induction takes generalizing component a with
  | nil => exact .pure ⟨trivial, rfl⟩
  | cons t rest ih =>
    refine .bind (Consumes.perform t.take a ha) ?_ ?_
    · rintro ⟨result, left⟩ ⟨hresult, hleft⟩
      cases result with
      | error stop => exact .pure ⟨hresult, rfl⟩
      | ok value => exact ih (component.push (label ++ t.field) value) left hleft
    · rintro p ⟨result, left⟩ s hstop
      cases result with
      | error stop => exact hstop
      | ok value => cases hstop

theorem create (c : Construction) {a : Arguments}
    (ha : ∀ entry ∈ a.entries, entry.argument.Among r.points) :
    Program r (fun result => Ends (·.IsOf r.own) r.stops result.1) fun p =>
      Assemble.create p c a := by
  refine .after (.component c.type) fun component hown => .bind (checkFault _ _) ?_ ?_
  · intro result hresult
    cases result with
    | error stop => exact .pure hresult
    | ok _ =>
      refine .bind (fill "" c.takes component a ha) ?_ ?_
      · rintro ⟨result, filled, a⟩ ⟨hresult, hname⟩
        refine .pure ?_
        cases result with
        | error stop => exact hresult
        | ok _ =>
          intro other hother
          cases hother
          exact hname ▸ hown
      · rintro p ⟨result, filled, a⟩ s hstop
        cases result with
        | error stop => exact hstop
        | ok _ => cases hstop
  · intro p result s hstop
    cases result with
    | error stop => exact hstop
    | ok _ => cases hstop

theorem apply (c : Construction) (m : Member) {stage : Stage} (hstage : stage.IsOf r.own)
    {a : Arguments} (ha : ∀ entry ∈ a.entries, entry.argument.Among r.points) :
    Program r (fun result => StopsBy r.stops result.1 ∧ result.2.1.IsOf r.own) fun p =>
      Assemble.apply p c m stage a := by
  have hmismatch : (stageMismatch c.type m.stage).IsPlain := fun chain => by simp [stageMismatch]
  refine ite (fun _ => .pure ⟨r.plain _ hmismatch, hstage⟩) fun _ => ?_
  cases hcomponent : stage.component with
  | none => exact .pure ⟨trivial, hstage⟩
  | some component =>
    have hown := hstage component hcomponent
    refine .after (.note fun n hn => Option.mem_some_iff.mp hn ▸ hown) fun _ _ => ?_
    refine .bind (checkFault _ _) ?_ ?_
    · intro result hresult
      cases result with
      | error stop => exact .pure ⟨hresult, hstage⟩
      | ok _ =>
        refine .bind (fill _ m.takes component a ha) ?_ ?_
        · rintro ⟨result, filled, a⟩ ⟨hresult, hname⟩
          refine .pure ⟨hresult, fun other hother => ?_⟩
          cases hother
          exact hname ▸ hown
        · rintro p ⟨result, filled, a⟩ s hstop
          exact hstop
    · intro p result s hstop
      cases result with
      | error stop => exact hstop
      | ok _ => cases hstop

theorem finish (c : Construction) {stage : Stage} (hstage : stage.IsOf r.own) :
    Program r (StopsBy r.stops) fun _ => Assemble.finish c stage := by
  have hmismatch : (stageMismatch c.type c.stage).IsPlain := fun chain => by simp [stageMismatch]
  unfold Assemble.finish
  refine ite (fun _ => raise hmismatch) fun _ => ?_
  cases hcomponent : stage.component with
  | none => exact raise hmismatch
  | some component =>
    have hown := hstage component hcomponent
    refine ite (fun _ => ?_) fun _ => allocate _
    refine andThen (lifted (.note fun n hn => Option.mem_some_iff.mp hn ▸ hown)) fun _ _ => ?_
    exact andThen (checkFault _ _) fun _ _ => allocate _

theorem applyMembers (c : Construction) (ms : List Member) (values : List (List Argument))
    {stage : Stage} (hstage : stage.IsOf r.own) (hvalues : ∀ vs ∈ values, ∀ v ∈ vs, v.Among r.points) :
    Program r (Ends (·.IsOf r.own) r.stops) fun p => Assemble.applyMembers p c ms values stage := by
  induction ms generalizing values stage with
  | nil => exact ok hstage
  | cons m ms ih =>
    cases values with
    | nil => exact ok hstage
    | cons vs rest =>
      have hargs := Arguments.among_ofPoints (c.type.shortName ++ "." ++ m.name) m.points
        (hvalues vs List.mem_cons_self)
      refine liftThen (apply c m hstage hargs) ?_ ?_
      · rintro ⟨result, stage, a⟩ ⟨hresult, hstage⟩
        cases result with
        | error stop => exact .pure hresult
        | ok _ => exact ih rest hstage fun vs hvs => hvalues vs (List.mem_cons_of_mem _ hvs)
      · rintro p ⟨result, stage, a⟩ s hstop
        cases result with
        | error stop => exact hstop
        | ok _ => cases hstop

theorem build (c : Construction) {parameters : List Argument} {ms : List (List Argument)}
    (hparameters : ∀ v ∈ parameters, v.Among r.points)
    (hms : ∀ vs ∈ ms, ∀ v ∈ vs, v.Among r.points) :
    Program r (StopsBy r.stops) fun p => Assemble.build p c parameters ms := by
  have hargs := Arguments.among_ofPoints c.type.shortName c.parameters hparameters
  refine liftThen (create c hargs) ?_ ?_
  · rintro ⟨result, a⟩ hresult
    cases result with
    | error stop => exact .pure hresult
    | ok stage =>
      exact andThen (applyMembers c c.members ms hresult hms) fun stage hstage => finish c hstage
  · rintro p ⟨result, a⟩ s hstop
    cases result with
    | error stop => exact hstop
    | ok _ => cases hstop

/-! ## Resolution -/

theorem resolveDependency {x : InjectionPoint} (c : VisitContext) (hx : r.points x)
    (hsource : x.source = .dependency) :
    Program r (Ends (fun result => result.1.Among r.points) r.stops) fun p =>
      Assemble.resolveDependency p x c := by
  refine ite (fun _ => ok hx) fun hdeferred => ?_
  have heager : x.isEager := by simp [InjectionPoint.isEager, hsource, hdeferred]
  refine andThen (.supply hx heager) fun result _ => ?_
  cases result with
  | none => exact ok trivial
  | some i => exact ok trivial

theorem resolvePoint {x : InjectionPoint} (f : Focus) (hx : r.points x) :
    Program r (fun result => Ends (·.Among r.points) r.stops result.1) fun p =>
      Assemble.resolvePoint p x f := by
  unfold Assemble.resolvePoint
  cases hvisit : Visit.visit? x with
  | none =>
    refine .bind (resolveDependency f.context hx (Visit.visit?_eq_none_iff.mp hvisit)) ?_ ?_
    · intro result hresult
      cases result with
      | error stop => exact .pure hresult
      | ok _ => exact .pure hresult
    · intro p result s hstop
      cases result with
      | error stop => exact hstop
      | ok _ => cases hstop
  | some visit =>
    have hends : ∀ v, Yields (fun result => VisitEnds r.points result.1) (visit v) :=
      Visit.visit_ends hvisit
    refine .after (.journal (Visit.quiet_visit hvisit _) (hends _)) ?_
    rintro ⟨result, v⟩ hresult
    cases result with
    | error cause => exact .pure (r.plain cause hresult)
    | ok argument => exact .pure hresult

theorem resolvePoints (xs : List InjectionPoint) (f : Focus) (hxs : ∀ x ∈ xs, r.points x) :
    Program r (fun result => Ends (∀ a ∈ ·, a.Among r.points) r.stops result.1) fun p =>
      Assemble.resolvePoints p xs f := by
  induction xs generalizing f with
  | nil => exact .pure fun a ha => by cases ha
  | cons x rest ih =>
    refine .bind (resolvePoint f (hxs x List.mem_cons_self)) ?_ ?_
    · rintro ⟨result, f⟩ hresult
      cases result with
      | error stop => exact .pure hresult
      | ok argument =>
        refine .bind (ih f fun y hy => hxs y (List.mem_cons_of_mem _ hy)) ?_ ?_
        · rintro ⟨result', f⟩ hresult'
          refine .pure ?_
          cases result' with
          | error stop => exact hresult'
          | ok arguments =>
            intro a ha
            rcases List.mem_cons.mp ha with rfl | ha
            · exact hresult
            · exact hresult' a ha
        · rintro p ⟨result', f⟩ s hstop
          cases result' with
          | error stop => exact hstop
          | ok _ => cases hstop
    · rintro p ⟨result, f⟩ s hstop
      cases result with
      | error stop => exact hstop
      | ok _ => cases hstop

theorem resolveMembers (ms : List Member) (f : Focus)
    (hms : ∀ m ∈ ms, ∀ x ∈ m.points, r.points x) :
    Program r (fun result => Ends (∀ as ∈ ·, ∀ a ∈ as, a.Among r.points) r.stops result.1) fun p =>
      Assemble.resolveMembers p ms f := by
  induction ms generalizing f with
  | nil => exact .pure fun as has => by cases has
  | cons m rest ih =>
    refine .bind (resolvePoints m.points f (hms m List.mem_cons_self)) ?_ ?_
    · rintro ⟨result, f⟩ hresult
      cases result with
      | error stop => exact .pure hresult
      | ok arguments =>
        refine .bind (ih f fun m hm => hms m (List.mem_cons_of_mem _ hm)) ?_ ?_
        · rintro ⟨result', f⟩ hresult'
          refine .pure ?_
          cases result' with
          | error stop => exact hresult'
          | ok members =>
            intro as has
            rcases List.mem_cons.mp has with rfl | has
            · exact hresult
            · exact hresult' as has
        · rintro p ⟨result', f⟩ s hstop
          cases result' with
          | error stop => exact hstop
          | ok _ => cases hstop
    · rintro p ⟨result, f⟩ s hstop
      cases result with
      | error stop => exact hstop
      | ok _ => cases hstop

theorem resolveAll {c : Construction} (f : Focus) (hc : ∀ x ∈ c.points, r.points x) :
    Program r (fun result => Ends (fun prepared => (∀ a ∈ prepared.parameters, a.Among r.points) ∧
        ∀ as ∈ prepared.members, ∀ a ∈ as, a.Among r.points) r.stops result.1) fun p =>
      Assemble.resolveAll p c f := by
  have hparameters : ∀ x ∈ c.parameters, r.points x := fun x hx => hc x (List.mem_append_left _ hx)
  have hmembers : ∀ m ∈ c.members, ∀ x ∈ m.points, r.points x := fun m hm x hx =>
    hc x (List.mem_append_right _ (List.mem_flatMap.mpr ⟨m, hm, hx⟩))
  refine .bind (resolvePoints c.parameters f hparameters) ?_ ?_
  · rintro ⟨result, f⟩ hresult
    cases result with
    | error stop => exact .pure hresult
    | ok arguments =>
      refine .bind (resolveMembers c.members f hmembers) ?_ ?_
      · rintro ⟨result', f⟩ hresult'
        cases result' with
        | error stop => exact .pure hresult'
        | ok members => exact .pure ⟨hresult, hresult'⟩
      · rintro p ⟨result', f⟩ s hstop
        cases result' with
        | error stop => exact hstop
        | ok _ => cases hstop
  · rintro p ⟨result, f⟩ s hstop
    cases result with
    | error stop => exact hstop
    | ok _ => cases hstop

theorem prepare {c : Construction} (node : Option (Node Instance)) (path : String)
    (hc : ∀ x ∈ c.points, r.points x) :
    Program r (fun result => Ends (fun prepared => (∀ a ∈ prepared.parameters, a.Among r.points) ∧
        ∀ as ∈ prepared.members, ∀ a ∈ as, a.Among r.points) r.stops result.1) fun p =>
      Assemble.prepare p c node path := by
  have hvalidation : ∀ failures, r.stops (.error (.validation path failures)) := fun failures =>
    r.plain _ fun chain => by simp
  refine .look (fun p s t h => by rw [h.property?]) fun s _ => ?_
  dsimp only
  split
  · exact .pure (hvalidation _)
  · refine .bind .substitutor ?_ ?_
    · intro result hresult
      cases result with
      | error stop => exact .pure hresult
      | ok substitutor =>
        refine .bind (resolveAll { node, context := { path, substitutor } } hc) ?_ ?_
        · rintro ⟨result, f⟩ hresult
          cases result with
          | error stop => exact .pure hresult
          | ok prepared =>
            dsimp only
            split
            · exact .pure (hvalidation _)
            · exact .pure hresult
        · rintro p ⟨result, f⟩ s hstop
          cases result with
          | error stop => exact hstop
          | ok _ => cases hstop
    · intro p result s hstop
      cases result with
      | error stop => exact hstop
      | ok _ => cases hstop

/-- **Constructions.**  A construction asks for its points only, and for eager ones first. -/
theorem construct {c : Construction} (node : Option (Node Instance)) (path : String)
    (hc : ∀ x ∈ c.points, r.points x) :
    Program r (fun result => StopsBy r.stops result.1) fun p =>
      Assemble.construct p c node path := by
  refine .bind (prepare node path hc) ?_ ?_
  · rintro ⟨result, node⟩ hresult
    cases result with
    | error stop => exact .pure hresult
    | ok prepared =>
      refine .after (.journal (.debug _ _) (P := fun _ => True) fun _ => trivial) fun _ _ => ?_
      exact .bind (build c hresult.1 hresult.2) (fun result hresult => .pure hresult)
        fun p result s hstop => hstop
  · rintro p ⟨result, node⟩ s hstop
    cases result with
    | error stop => exact hstop
    | ok _ => cases hstop

/-! ## Recipes -/

theorem gatherFields {needs tries : List Key} (hneeds : ∀ key ∈ needs, r.keys key)
    (htries : ∀ key ∈ tries, r.keys key) :
    Program r (StopsBy r.stops) fun p => Assemble.gatherFields p needs tries := by
  have hneeded : Program r (StopsBy r.stops) fun p => (needs.mapM fun key => do
      return (key.text, FieldValue.one (← p.ask key)) : Assemble (List (String × FieldValue))) :=
    mapM fun key hkey => andThen (.ask (hneeds key hkey)) fun _ _ => ok trivial
  refine andThen hneeded fun needed _ => andThen (P := fun _ => True) ?_ fun tried _ => ok trivial
  refine mapM fun key hkey => andThen (attempt (.ask (htries key hkey))) fun result _ => ?_
  cases result with
  | ok i => exact ok trivial
  | error cause => exact ok trivial

/-- A fresh component of which nothing is noted any more. -/
theorem newComponent (type : TypePath) :
    Program r (Ends (r.own ·.name) r.stops) fun _ => Assemble.journal (Journal.newComponent type) :=
  lifted (.component type)

theorem gather (type : TypePath) {needs tries : List Key} {returns : Option Key}
    (hneeds : ∀ key ∈ needs, r.keys key) (htries : ∀ key ∈ tries, r.keys key)
    (hreturns : ∀ key ∈ returns, r.keys key) :
    Program r (StopsBy r.stops) fun p => Assemble.gather p type needs tries returns := by
  refine read (fun p s t h => by rw [h.alive]) fun s _ => ite (fun _ => ?_) fun _ => ?_
  · exact andThen (P := fun _ => False) (raise fun chain => by simp) fun _ hfalse => hfalse.elim
  · refine andThen (gatherFields hneeds htries) fun fields _ => ?_
    cases returns with
    | some key => exact .ask (hreturns key rfl)
    | none => exact andThen (newComponent type) fun component _ => allocate _

theorem makeLiteral (l : Literal) :
    Program r (StopsBy r.stops) fun _ => Assemble.makeLiteral l := by
  cases l with
  | scalar s => exact allocate _
  | substitutor s => exact allocate _
  | component type => exact andThen (newComponent type) fun _ _ => allocate _

/-- **Recipes.**  A recipe asks for its keys only. -/
theorem followRecipe {recipe : Recipe} (hkeys : ∀ key ∈ recipe.keys, r.keys key) :
    Program r (StopsBy r.stops) fun p => Assemble.followRecipe p recipe := by
  refine andThen (lifted (.note fun n hn => by cases hn)) fun _ _ => ?_
  refine andThen (checkFault _ _) fun _ _ => ?_
  cases hbody : recipe.body with
  | counter name type => exact lift (.number name) fun _ _ => allocate _
  | literal l => exact makeLiteral l
  | gather needs tries returns =>
    have hall : recipe.keys = needs ++ tries ++ returns.toList := by simp [Recipe.keys, hbody]
    rw [hall] at hkeys
    refine gather recipe.type (fun key hkey => hkeys key ?_) (fun key hkey => hkeys key ?_)
      fun key hkey => hkeys key ?_
    · simp [hkey]
    · simp [hkey]
    · simp [Option.mem_def.mp hkey]

/-! ## Factories without layers -/

theorem whileAlive (key : Key) :
    Program r (StopsBy r.stops) fun _ => Assemble.whileAlive key :=
  read (fun p s t h => by rw [h.alive]) fun _ _ =>
    ite (fun _ => raise fun chain => by simp) fun _ => ok trivial

/-- A factory without layers asks for its keys and for the points of its construction. -/
theorem run_core {f : Factory} (hf : f.isCore) (hkeys : ∀ key ∈ f.keys, r.keys key)
    (hpoints : ∀ key c, f = .construct key c → ∀ x ∈ c.points, r.points x) :
    Program r (StopsBy r.stops) f.run := by
  cases f with
  | guarded _ _ => cases hf
  | once _ _ => cases hf
  | memo _ _ _ => cases hf
  | constant i => exact ok trivial
  | recipe recipe rewrap =>
    refine andThen (followRecipe hkeys) fun i _ => ?_
    exact ite (fun _ => duplicate i) fun _ => ok trivial
  | method key recipe =>
    refine andThen (whileAlive key) fun _ _ => ?_
    exact andThen (followRecipe hkeys) fun i _ => duplicate i
  | construct key c =>
    refine andThen (whileAlive key) fun _ _ => ?_
    refine liftThen (construct none c.type.shortName (hpoints key c rfl)) ?_ ?_
    · rintro ⟨result, node⟩ hresult
      exact .pure hresult
    · rintro p ⟨result, node⟩ s hstop
      exact hstop

/-! ## Configuration -/

theorem configureSelf (plugin : PluginType) (n : Node Instance) (path : String) (hfails : r.fails)
    (hreads : ∀ s, r.reads s → ∀ type, ∀ x ∈ (s.declared type).points, r.points x) :
    Program r (fun result => StopsBy r.stops result.1) fun p =>
      Assemble.configureSelf p plugin n path := by
  refine .look (fun p s t h => by rw [h.declared]) fun s hs => ?_
  refine .after (.journal (.debug _ _) (P := fun _ => True) fun _ => trivial) fun _ _ => ?_
  refine .bind (construct (some n) path (hreads s hs _)) ?_ ?_
  · rintro ⟨result, left⟩ hresult
    match result, hresult with
    | .ok object, _ =>
      refine .look (fun p s t h => by rw [h.reportUnmatched]) fun s _ =>
        ite (fun _ => ?_) fun _ => .pure trivial
      exact .after (Step.reportLeftovers _ _) fun _ _ => .pure trivial
    | .error (.error cause), hresult =>
      refine ite (fun _ => ?_) fun _ => .pure hresult
      exact .after (.failure hfails _ _) fun _ _ => .pure trivial
    | .error .exhausted, hresult => exact .pure hresult
  · rintro p ⟨result, left⟩ s hstop
    match result, hstop with
    | .error .exhausted, _ => rfl

mutual

/-- **Configuration.**  A tree asks for the points of the constructions that its plugins declare. -/
theorem configureNode (n : Node Instance) (path : String) (hfails : r.fails)
    (hreads : ∀ s, r.reads s → ∀ type, ∀ x ∈ (s.declared type).points, r.points x) :
    Program r (fun result => StopsBy r.stops result.1) fun p =>
      Assemble.configureNode p n path := by
  obtain ⟨name, plugin, attributes, text, children, object⟩ := n
  unfold Assemble.configureNode
  cases plugin with
  | none =>
    refine .pure ?_
    exact r.plain _ fun chain => by simp
  | some plugin =>
    have hself := fun n => configureSelf plugin n path hfails hreads
    refine ite (fun _ => hself _) fun _ => ?_
    refine .bind (configureChildren children path hfails hreads) ?_ ?_
    · rintro ⟨result, children⟩ hresult
      cases result with
      | error stop => exact .pure hresult
      | ok _ => exact hself _
    · rintro p ⟨result, children⟩ s hstop
      cases result with
      | error stop => exact hstop
      | ok _ => cases hstop

theorem configureChildren (children : List (Node Instance)) (path : String) (hfails : r.fails)
    (hreads : ∀ s, r.reads s → ∀ type, ∀ x ∈ (s.declared type).points, r.points x) :
    Program r (fun result => StopsBy r.stops result.1) fun p =>
      Assemble.configureChildren p children path := by
  match children with
  | [] =>
    unfold Assemble.configureChildren
    exact .pure trivial
  | child :: rest =>
    have hrest := configureChildren rest path hfails hreads
    unfold Assemble.configureChildren
    refine ite (fun _ => ?_) fun _ => ?_
    · refine .after (Step.report (by decide) _ _) fun _ _ => ?_
      exact .bind hrest (fun result hresult => .pure hresult) fun p result s hstop => hstop
    · refine .bind (configureNode child _ hfails hreads) ?_ ?_
      · rintro ⟨result, child⟩ hresult
        cases result with
        | error stop => exact .pure hresult
        | ok object =>
          exact .bind hrest (fun result hresult => .pure hresult) fun p result s hstop => hstop
      · rintro p ⟨result, child⟩ s hstop
        cases result with
        | error stop => exact hstop
        | ok _ => cases hstop

end

end Program

end ComponentAssembly

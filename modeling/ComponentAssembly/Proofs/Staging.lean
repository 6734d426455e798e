import ComponentAssembly.Proofs.Traces

/-!
# Constructions are staged

A construction goes through its phases one after the other, and the first failure ends it
(`Staged`, `Assemble.construct_staged`):

    class constraints    all of them, before anything else happens
    points               parameters first and then members, each in order of declaration
    point constraints    all of them, before anything is created
    create, members, finish

All constraints of a phase are checked, and the complaints list those that fail in order.  What is
noted about the component in the making tells how far the last phases went.
-/

namespace ComponentAssembly

open Assemble

/-! ## Complaints -/

namespace Constraint

/-- Whether a class constraint holds of the properties. -/
def holds (property : String → Option String) : Constraint → Bool
  | required _ => true
  | requiredProperty name expected =>
    (property name).any fun actual => expected.all fun value => actual == value

/-- What is said of a class constraint that does not hold. -/
def complaint (property : String → Option String) (path : String) : Constraint → String
  | required _ => ""
  | requiredProperty name expected =>
    match property name with
    | none => path ++ ": 缺少必需的属性 " ++ name
    | some actual => path ++ ": 属性 " ++ name ++ " 的值为 \"" ++ actual ++ "\", 要求为 \"" ++
        expected.getD "" ++ "\""

/-- Whether a constraint asks for an argument that is not empty. -/
def isRequired : Constraint → Bool
  | required _ => true
  | requiredProperty .. => false

/-- What is said of an empty argument. -/
def demand : Constraint → String
  | required message => message.getD "缺少必需的值"
  | requiredProperty .. => ""

end Constraint

/-- The complaints of constraints of points: one for each that asks for an argument that is not empty,
and has an empty one. -/
def emptyComplaints (points : List InjectionPoint) (arguments : List Argument) (path : String) :
    List String :=
  (points.zip arguments).flatMap fun (p, argument) =>
    (p.constraints.filter fun x => x.isRequired && argument.isEmpty).map fun x =>
      path ++ "." ++ p.name ++ ": " ++ x.demand

/-- The class constraints that fail are complained of, in order. -/
theorem Construction.classFailures_eq (c : Construction) (property : String → Option String)
    (path : String) : c.classFailures property path =
      (c.constraints.filter (!·.holds property)).map (·.complaint property path) := by
  unfold Construction.classFailures
  rw [← List.filterMap_eq_map, List.filterMap_filter]
  congr 1
  funext x
  cases x with
  | required message => rfl
  | requiredProperty name expected =>
    cases hproperty : property name with
    | none => simp [Constraint.classFailure, Constraint.holds, Constraint.complaint, hproperty]
    | some actual =>
      cases expected with
      | none => simp [Constraint.classFailure, Constraint.holds, hproperty]
      | some value =>
        by_cases heq : actual = value <;>
          simp [Constraint.classFailure, Constraint.holds, Constraint.complaint, hproperty, heq]

theorem pointFailures_eq (points : List InjectionPoint) (arguments : List Argument) (path : String) :
    pointFailures points arguments path = emptyComplaints points arguments path := by
  unfold pointFailures emptyComplaints
  congr 1
  funext ⟨p, argument⟩
  dsimp only
  rw [← List.filterMap_eq_map, List.filterMap_filter]
  congr 1
  funext x
  cases x with
  | required message =>
    cases hempty : argument.isEmpty <;>
      simp [Constraint.pointFailure, Constraint.isRequired, Constraint.demand, hempty]
  | requiredProperty name expected => rfl

/-! ## Steps in order -/

section

variable {ι σ ω : Type} {run : ι → σ → Except Stop ω × σ}

/-- Steps that return, one after the other, each from where the one before it ended. -/
inductive InOrder (run : ι → σ → Except Stop ω × σ) : List ι → σ → List ω → σ → Prop
  | nil {s : σ} : InOrder run [] s [] s
  | cons {i : ι} {rest : List ι} {s t u : σ} {a : ω} {as : List ω} (hfirst : run i s = (.ok a, t))
      (hrest : InOrder run rest t as u) : InOrder run (i :: rest) s (a :: as) u

/-- Steps one after the other, the first of which to fail ends them. -/
def FailsInOrder (run : ι → σ → Except Stop ω × σ) (is : List ι) (s : σ) (stop : Stop) (u : σ) :
    Prop :=
  ∃ before i after as t, is = before ++ i :: after ∧ InOrder run before s as t ∧
    run i t = (.error stop, u)

variable {is js : List ι} {i : ι} {s t u : σ} {a : ω} {as bs : List ω} {stop : Stop}

theorem InOrder.length (h : InOrder run is s as t) : as.length = is.length := by
  induction h with
  | nil => rfl
  | cons _ _ ih => simp [ih]

theorem InOrder.append (h : InOrder run is s as t) (h' : InOrder run js t bs u) :
    InOrder run (is ++ js) s (as ++ bs) u := by
  induction h with
  | nil => exact h'
  | cons hfirst _ ih => exact .cons hfirst (ih h')

theorem FailsInOrder.head (h : run i s = (.error stop, u)) : FailsInOrder run (i :: is) s stop u :=
  ⟨[], i, is, [], s, rfl, .nil, h⟩

theorem FailsInOrder.cons (hfirst : run i s = (.ok a, t)) (h : FailsInOrder run is t stop u) :
    FailsInOrder run (i :: is) s stop u := by
  obtain ⟨before, j, after, as, v, rfl, hbefore, hfails⟩ := h
  exact ⟨i :: before, j, after, a :: as, v, rfl, .cons hfirst hbefore, hfails⟩

theorem FailsInOrder.after (h : InOrder run is s as t) (h' : FailsInOrder run js t stop u) :
    FailsInOrder run (is ++ js) s stop u := by
  induction h with
  | nil => exact h'
  | cons hfirst _ ih => exact (ih h').cons hfirst

theorem FailsInOrder.before (h : FailsInOrder run is s stop u) (js : List ι) :
    FailsInOrder run (is ++ js) s stop u := by
  obtain ⟨before, j, after, as, v, rfl, hbefore, hfails⟩ := h
  exact ⟨before, j, after ++ js, as, v, by simp, hbefore, hfails⟩

end

/-! ## Runs of the steps of a construction -/

namespace Assemble

section

variable {given : Provider} {c : Construction} {m : Member} {stage : Stage} {a left : Arguments}
  {component component' : Component} {stop : Stop} {r : Except Stop Unit} {s t u v : State}

theorem fill_stopped {label : String} {f : FieldTake} {rest : List FieldTake}
    (h : f.take.perform given a s = ((.error stop, left), t)) :
    fill given label (f :: rest) component a s = ((.error stop, component, left), t) := by
  have hrun : (f.take.perform given).run a s = ((.error stop, left), t) := h
  simp [fill, hrun]

theorem fill_next {label : String} {f : FieldTake} {rest : List FieldTake} {value : FieldValue}
    (h : f.take.perform given a s = ((.ok value, left), t)) :
    fill given label (f :: rest) component a s =
      fill given label rest (component.push (label ++ f.field) value) left t := by
  have hrun : (f.take.perform given).run a s = ((.ok value, left), t) := h
  simp [fill, hrun]

theorem create_faulty (hnew : State.onJournal (Journal.newComponent c.type) s = (component, u))
    (hfault : checkFault c.type.shortName c.fault u = (.error stop, t)) :
    create given c a s = ((.error stop, a), t) := by
  simp [create, hnew, hfault]

theorem create_filled (hnew : State.onJournal (Journal.newComponent c.type) s = (component, u))
    (hfault : checkFault c.type.shortName c.fault u = (.ok (), v))
    (hfill : fill given "" c.takes component a v = ((r, component', left), t)) :
    create given c a s =
      ((r.map fun () => { type := c.stage, component := some component' }, left), t) := by
  simp [create, hnew, hfault, hfill]

theorem apply_mismatched (htype : stage.type ≠ m.stage) :
    Assemble.apply given c m stage a s =
      ((.error (.error (stageMismatch c.type m.stage)), stage, a), s) := by
  simp [Assemble.apply, htype]

theorem apply_foreign (htype : stage.type = m.stage) (hcomponent : stage.component = none) :
    Assemble.apply given c m stage a s = ((.ok (), stage, a), s) := by
  simp [Assemble.apply, htype, hcomponent]

theorem apply_faulty (htype : stage.type = m.stage) (hcomponent : stage.component = some component)
    (hnote : State.onJournal (Journal.note (.assigned component.name m.name)) s = ((), u))
    (hfault : checkFault c.type.shortName m.fault u = (.error stop, t)) :
    Assemble.apply given c m stage a s = ((.error stop, stage, a), t) := by
  simp [Assemble.apply, htype, hcomponent, hnote, hfault]

theorem apply_filled (htype : stage.type = m.stage) (hcomponent : stage.component = some component)
    (hnote : State.onJournal (Journal.note (.assigned component.name m.name)) s = ((), u))
    (hfault : checkFault c.type.shortName m.fault u = (.ok (), v))
    (hfill : fill given (m.name ++ ".") m.takes component a v = ((r, component', left), t)) :
    Assemble.apply given c m stage a s =
      ((r, { stage with component := some component' }, left), t) := by
  simp [Assemble.apply, htype, hcomponent, hnote, hfault, hfill]

theorem finish_unnoted (htype : stage.type = c.stage) (hcomponent : stage.component = some component)
    (hkind : c.kind ≠ .builder) : finish c stage s = allocate (.component component) s := by
  simp [finish, htype, hcomponent, hkind]

theorem finish_faulty (htype : stage.type = c.stage) (hcomponent : stage.component = some component)
    (hkind : c.kind = .builder) (hnote : journal (Journal.note (.built component.name)) s = (.ok (), u))
    (hfault : checkFault c.type.shortName c.finishFault u = (.error stop, t)) :
    finish c stage s = (.error stop, t) := by
  simp [finish, htype, hcomponent, hkind, hnote, hfault]

theorem finish_noted (htype : stage.type = c.stage) (hcomponent : stage.component = some component)
    (hkind : c.kind = .builder) (hnote : journal (Journal.note (.built component.name)) s = (.ok (), u))
    (hfault : checkFault c.type.shortName c.finishFault u = (.ok (), t)) :
    finish c stage s = allocate (.component component) t := by
  simp [finish, htype, hcomponent, hkind, hnote, hfault]

end

end Assemble

/-! ## Points -/

section

variable (given : Provider)

/-- Resolves a point where the one before it left the node and the state. -/
def resolving (p : InjectionPoint) (x : Focus × State) : Except Stop Argument × Focus × State :=
  let ((r, f), t) := resolvePoint given p x.1 x.2
  (r, f, t)

/-- How the resolution of points ends: all are resolved in order, or the first failure ends it. -/
def ResolvesTo (ps : List InjectionPoint) (f : Focus) (s : State) :
    (Except Stop (List Argument) × Focus) × State → Prop
  | ((.ok arguments, f'), t) => InOrder (resolving given) ps (f, s) arguments (f', t)
  | ((.error stop, f'), t) => FailsInOrder (resolving given) ps (f, s) stop (f', t)

theorem resolvePoints_ends (ps : List InjectionPoint) (f : Focus) (s : State) :
    ResolvesTo given ps f s (resolvePoints given ps f s) := by
  induction ps generalizing f s with
  | nil => exact .nil
  | cons p rest ih =>
    cases hpoint : resolvePoint given p f s with
    | mk ended t =>
      obtain ⟨r, f'⟩ := ended
      cases r with
      | error stop =>
        have hrun : resolvePoints given (p :: rest) f s = ((.error stop, f'), t) := by
          simp [resolvePoints, hpoint]
        rw [hrun]
        exact FailsInOrder.head (by simp only [resolving, hpoint])
      | ok argument =>
        have hfirst : resolving given p (f, s) = (.ok argument, f', t) := by
          simp only [resolving, hpoint]
        have hrest := ih f' t
        cases hres : resolvePoints given rest f' t with
        | mk ended u =>
          obtain ⟨r, f''⟩ := ended
          have hrun : resolvePoints given (p :: rest) f s = ((r.map (argument :: ·), f''), u) := by
            simp [resolvePoints, hpoint, hres]
          rw [hres] at hrest
          rw [hrun]
          cases r with
          | error stop => exact FailsInOrder.cons hfirst hrest
          | ok arguments => exact InOrder.cons hfirst hrest

/-- Arguments of members: as many for each as it has points. -/
def Fit : List Member → List (List Argument) → Prop :=
  List.Forall₂ fun m arguments => arguments.length = m.points.length

theorem resolveMembers_ends (ms : List Member) (f : Focus) (s : State) :
    match resolveMembers given ms f s with
    | ((.ok groups, f'), t) => Fit ms groups ∧
        ResolvesTo given (ms.flatMap (·.points)) f s ((.ok groups.flatten, f'), t)
    | ((.error stop, f'), t) =>
        ResolvesTo given (ms.flatMap (·.points)) f s ((.error stop, f'), t) := by
  induction ms generalizing f s with
  | nil => exact ⟨.nil, InOrder.nil⟩
  | cons m rest ih =>
    rw [List.flatMap_cons]
    have hpoints := resolvePoints_ends given m.points f s
    cases hres : resolvePoints given m.points f s with
    | mk ended t =>
      obtain ⟨r, f'⟩ := ended
      rw [hres] at hpoints
      cases r with
      | error stop =>
        have hrun : resolveMembers given (m :: rest) f s = ((.error stop, f'), t) := by
          simp [resolveMembers, hres]
        rw [hrun]
        exact FailsInOrder.before hpoints _
      | ok arguments =>
        have hrest := ih f' t
        cases hmembers : resolveMembers given rest f' t with
        | mk ended u =>
          obtain ⟨r, f''⟩ := ended
          have hrun : resolveMembers given (m :: rest) f s =
              ((r.map (arguments :: ·), f''), u) := by
            simp [resolveMembers, hres, hmembers]
          rw [hmembers] at hrest
          rw [hrun]
          cases r with
          | error stop => exact FailsInOrder.after hpoints hrest
          | ok groups => exact ⟨.cons hpoints.length hrest.1, InOrder.append hpoints hrest.2⟩

end

def Assemble.Prepared.arguments (p : Prepared) : List Argument :=
  p.parameters ++ p.members.flatten

/-- A construction is prepared with an argument for each of its points. -/
def Assemble.Prepared.Fits (p : Prepared) (c : Construction) : Prop :=
  p.parameters.length = c.parameters.length ∧ Fit c.members p.members

theorem resolveAll_ends (given : Provider) (c : Construction) (f : Focus) (s : State) :
    match resolveAll given c f s with
    | ((.ok prepared, f'), t) => prepared.Fits c ∧
        ResolvesTo given c.points f s ((.ok prepared.arguments, f'), t)
    | ((.error stop, f'), t) => ResolvesTo given c.points f s ((.error stop, f'), t) := by
  have hpoints := resolvePoints_ends given c.parameters f s
  cases hres : resolvePoints given c.parameters f s with
  | mk ended t =>
    obtain ⟨r, f'⟩ := ended
    rw [hres] at hpoints
    cases r with
    | error stop =>
      have hrun : resolveAll given c f s = ((.error stop, f'), t) := by simp [resolveAll, hres]
      rw [hrun]
      exact FailsInOrder.before hpoints _
    | ok parameters =>
      have hrest := resolveMembers_ends given c.members f' t
      cases hmembers : resolveMembers given c.members f' t with
      | mk ended u =>
        obtain ⟨r, f''⟩ := ended
        rw [hmembers] at hrest
        simp only [resolveAll, run_stateBind, hres, hmembers]
        cases r with
        | error stop => exact FailsInOrder.after hpoints hrest
        | ok groups => exact ⟨⟨hpoints.length, hrest.1⟩, InOrder.append hpoints hrest.2⟩

theorem emptyComplaints_append {ps qs : List InjectionPoint} {as bs : List Argument} (path : String)
    (h : ps.length = as.length) : emptyComplaints (ps ++ qs) (as ++ bs) path =
      emptyComplaints ps as path ++ emptyComplaints qs bs path := by
  simp only [emptyComplaints, List.zip_append h, List.flatMap_append]

/-- The complaints of point constraints go through all points in order. -/
theorem argumentFailures_eq {c : Construction} {p : Prepared} (h : p.Fits c) (path : String) :
    argumentFailures c p path = emptyComplaints c.points p.arguments path := by
  have hmembers : ∀ {ms : List Member} {groups : List (List Argument)}, Fit ms groups →
      ((ms.zip groups).flatMap fun m => pointFailures m.1.points m.2 path) =
        emptyComplaints (ms.flatMap (·.points)) groups.flatten path := by
    intro ms groups hfit
    induction hfit with
    | nil => rfl
    | cons hlength _ ih =>
      rw [List.zip_cons_cons, List.flatMap_cons, List.flatMap_cons, List.flatten_cons,
        emptyComplaints_append path hlength.symm, ← ih, ← pointFailures_eq]
  calc
    argumentFailures c p path = emptyComplaints c.parameters p.parameters path ++
        emptyComplaints (c.members.flatMap (·.points)) p.members.flatten path :=
      congrArg₂ (· ++ ·) (pointFailures_eq _ _ _) (hmembers h.2)
    _ = emptyComplaints c.points p.arguments path := (emptyComplaints_append path h.1.symm).symm

/-! ## Building -/

section

variable (given : Provider) (c : Construction)

/-- Applies a member to a stage, with the arguments of its own points, where the one before it left
the stage and the state. -/
def applying (m : Member × List Argument) (x : Stage × State) : Except Stop Unit × Stage × State :=
  let a := Arguments.ofPoints (c.type.shortName ++ "." ++ m.1.name) m.1.points m.2
  let ((r, stage, _), t) := apply given c m.1 x.1 a x.2
  (r, stage, t)

/-- How building ends: the stage is created once, then each member is applied once in order, and then
it is finished once.  The first failure ends it. -/
inductive Built (p : Prepared) (s : State) : Except Stop Instance × State → Prop
  | uncreated {stop : Stop} {left : Arguments} {t : State}
      (hcreate : create given c (.ofPoints c.type.shortName c.parameters p.parameters) s =
        ((.error stop, left), t)) : Built p s (.error stop, t)
  | unapplied {stage stage' : Stage} {left : Arguments} {t u : State} {stop : Stop}
      (hcreate : create given c (.ofPoints c.type.shortName c.parameters p.parameters) s =
        ((.ok stage, left), t))
      (hmembers : FailsInOrder (applying given c) (c.members.zip p.members) (stage, t) stop
        (stage', u)) : Built p s (.error stop, u)
  | finished {stage stage' : Stage} {left : Arguments} {t u v : State} {applied : List Unit}
      {r : Except Stop Instance}
      (hcreate : create given c (.ofPoints c.type.shortName c.parameters p.parameters) s =
        ((.ok stage, left), t))
      (hmembers : InOrder (applying given c) (c.members.zip p.members) (stage, t) applied
        (stage', u))
      (hfinish : finish c stage' u = (r, v)) : Built p s (r, v)

theorem applyMembers_ends (ms : List Member) (groups : List (List Argument)) (stage : Stage)
    (s : State) :
    match applyMembers given c ms groups stage s with
    | (.ok stage', t) => ∃ applied,
        InOrder (applying given c) (ms.zip groups) (stage, s) applied (stage', t)
    | (.error stop, t) => ∃ stage',
        FailsInOrder (applying given c) (ms.zip groups) (stage, s) stop (stage', t) := by
  induction ms generalizing groups stage s with
  | nil => exact ⟨[], .nil⟩
  | cons m rest ih =>
    cases groups with
    | nil => exact ⟨[], .nil⟩
    | cons values groups =>
      rw [List.zip_cons_cons]
      cases happly : apply given c m stage
        (.ofPoints (c.type.shortName ++ "." ++ m.name) m.points values) s with
      | mk ended t =>
        obtain ⟨r, stage', left⟩ := ended
        cases r with
        | error stop =>
          have hrun : applyMembers given c (m :: rest) (values :: groups) stage s =
              (.error stop, t) := by simp [applyMembers, happly]
          rw [hrun]
          exact ⟨stage', .head (by simp only [applying, happly])⟩
        | ok _ =>
          have hrun : applyMembers given c (m :: rest) (values :: groups) stage s =
              applyMembers given c rest groups stage' t := by simp [applyMembers, happly]
          have hfirst : applying given c (m, values) (stage, s) = (.ok (), stage', t) := by
            simp only [applying, happly]
          have hrest := ih groups stage' t
          rw [hrun]
          cases hres : applyMembers given c rest groups stage' t with
          | mk r u =>
            rw [hres] at hrest
            cases r with
            | error stop =>
              obtain ⟨stage'', hfails⟩ := hrest
              exact ⟨stage'', hfails.cons hfirst⟩
            | ok _ =>
              obtain ⟨applied, hall⟩ := hrest
              exact ⟨() :: applied, .cons hfirst hall⟩

theorem build_ends (p : Prepared) (s : State) :
    Built given c p s (build given c p.parameters p.members s) := by
  cases hcreate : create given c (.ofPoints c.type.shortName c.parameters p.parameters) s with
  | mk ended t =>
    obtain ⟨r, left⟩ := ended
    cases r with
    | error stop =>
      have hrun : build given c p.parameters p.members s = (.error stop, t) := by
        simp [build, hcreate]
      rw [hrun]
      exact .uncreated hcreate
    | ok stage =>
      have hmembers := applyMembers_ends given c c.members p.members stage t
      cases hres : applyMembers given c c.members p.members stage t with
      | mk r u =>
        rw [hres] at hmembers
        cases r with
        | error stop =>
          obtain ⟨stage', hfails⟩ := hmembers
          have hrun : build given c p.parameters p.members s = (.error stop, u) := by
            simp [build, hcreate, hres]
          rw [hrun]
          exact .unapplied hcreate hfails
        | ok stage' =>
          obtain ⟨applied, hall⟩ := hmembers
          have hrun : build given c p.parameters p.members s = finish c stage' u := by
            simp [build, hcreate, hres]
          rw [hrun]
          exact .finished hcreate hall rfl

end

/-! ## What is noted about the component -/

/-- What is noted about the component of a construction that returns. -/
def Construction.trace (c : Construction) (n : ComponentName) : List Event :=
  .created n :: c.members.map (fun m => .assigned n m.name) ++
    if c.kind = .builder then [.built n] else []

/-- What is noted about the component that is made from a state on: a part from the beginning, and all
of it if an instance is returned, which then is that component. -/
def Construction.Traces (c : Construction) (s : State) (r : Except Stop Instance) (t : State) :
    Prop :=
  let n : ComponentName := ⟨c.type, s.journal.serials + 1⟩
  ∃ noted, t.journal.trace n = s.journal.trace n ++ noted ∧ noted <+: c.trace n ∧
    ∀ i, r = .ok i → noted = c.trace n ∧ ∃ component, i.value = .component component ∧
      component.name = n

/-- A stage is of a type and has a component of a name in it. -/
def Stage.Bears (stage : Stage) (type : TypePath) (n : ComponentName) : Prop :=
  stage.type = type ∧ ∃ component, stage.component = some component ∧ component.name = n

/-- Arguments that points were resolved to. -/
def Proper (arguments : List Argument) : Prop :=
  ∀ a ∈ arguments, a.Among fun _ => True

section

variable {given : Provider} {c : Construction} {n : ComponentName} {events : List Event}
  (hgiven : ∀ events, given.Keeps (.besides n) (State.Traced n events))
include hgiven

theorem checkFault_traced (owner : String) (fault : Option Fault) {s : State}
    (hs : s.Traced n events) : (checkFault owner fault s).2.Traced n events :=
  (Program.keeps (State.Traced.remit_keeps n events) (hgiven events)
    (Program.checkFault owner fault) s hs).1

theorem fill_traced (label : String) (takes : List FieldTake) (component : Component)
    (owner : String) (ps : List InjectionPoint) {values : List Argument} (hvalues : Proper values)
    {s : State} (hs : s.Traced n events) :
    (fill given label takes component (.ofPoints owner ps values) s).2.Traced n events ∧
      (fill given label takes component (.ofPoints owner ps values) s).1.2.1.name = component.name := by
  obtain ⟨hkeeps, -, hname⟩ := Program.keeps (State.Traced.remit_keeps n events) (hgiven events)
    (Program.fill label takes component _ (Arguments.among_ofPoints owner ps hvalues)) s hs
  exact ⟨hkeeps, hname⟩

theorem create_traced {s t : State} (hn : n = ⟨c.type, s.journal.serials + 1⟩) {owner : String}
    {ps : List InjectionPoint} {values : List Argument} (hvalues : Proper values)
    {r : Except Stop Stage} {left : Arguments}
    (hrun : create given c (.ofPoints owner ps values) s = ((r, left), t)) :
    t.Traced n (s.journal.trace n ++ [.created n]) ∧
      ∀ stage, r = .ok stage → stage.Bears c.stage n := by
  obtain ⟨u, hnew, hu⟩ : ∃ u, State.onJournal (Journal.newComponent c.type) s = (.fresh n, u) ∧
      u.Traced n (s.journal.trace n ++ [.created n]) := by
    subst hn
    exact ⟨_, rfl, Nat.le_refl _, Journal.trace_note_own
      { s.journal with serials := s.journal.serials + 1 } rfl⟩
  have hfault := checkFault_traced hgiven c.type.shortName c.fault hu
  cases hchecked : checkFault c.type.shortName c.fault u with
  | mk checked v =>
    rw [hchecked] at hfault
    cases checked with
    | error stop =>
      cases (create_faulty hnew hchecked).symm.trans hrun
      exact ⟨hfault, fun stage hstage => by cases hstage⟩
    | ok _ =>
      obtain ⟨hkeeps, hname⟩ := fill_traced hgiven "" c.takes (.fresh n) owner ps hvalues hfault
      cases hfill : fill given "" c.takes (.fresh n) (.ofPoints owner ps values) v with
      | mk filled w =>
        obtain ⟨result, component, rest⟩ := filled
        rw [hfill] at hkeeps hname
        cases (create_filled hnew hchecked hfill).symm.trans hrun
        refine ⟨hkeeps, fun stage hstage => ?_⟩
        cases result with
        | error stop => cases hstage
        | ok _ =>
          cases hstage
          exact ⟨rfl, component, rfl, hname⟩

/-- A member is noted before it changes anything, unless it is made for another type of stage. -/
theorem applying_traced {m : Member} {values : List Argument} (hvalues : Proper values)
    {stage stage' : Stage} (hstage : stage.Bears c.stage n) {s t : State} (hs : s.Traced n events)
    {r : Except Stop Unit} (hrun : applying given c (m, values) (stage, s) = (r, stage', t)) :
    match r with
    | .ok _ => t.Traced n (events ++ [.assigned n m.name]) ∧ stage'.Bears c.stage n
    | .error _ => t.Traced n events ∨ t.Traced n (events ++ [.assigned n m.name]) := by
  obtain ⟨htype, component, hcomponent, rfl⟩ := hstage
  generalize ha : Arguments.ofPoints (c.type.shortName ++ "." ++ m.name) m.points values = a
  by_cases hmatches : stage.type ≠ m.stage
  · simp only [applying, ha, apply_mismatched hmatches] at hrun
    cases hrun
    exact .inl hs
  · have hmatches : stage.type = m.stage := not_not.mp hmatches
    obtain ⟨s₁, hnote, hnoted⟩ : ∃ s₁,
        State.onJournal (Journal.note (.assigned component.name m.name)) s = ((), s₁) ∧
          s₁.Traced component.name (events ++ [.assigned component.name m.name]) :=
      ⟨_, rfl, hs.note_own rfl⟩
    have hfault := checkFault_traced hgiven c.type.shortName m.fault hnoted
    cases hchecked : checkFault c.type.shortName m.fault s₁ with
    | mk checked u =>
      rw [hchecked] at hfault
      cases checked with
      | error stop =>
        simp only [applying, ha, apply_faulty hmatches hcomponent hnote hchecked] at hrun
        cases hrun
        exact .inr hfault
      | ok _ =>
        obtain ⟨hkeeps, hname⟩ := fill_traced hgiven (m.name ++ ".") m.takes component
          (c.type.shortName ++ "." ++ m.name) m.points hvalues hfault
        rw [ha] at hkeeps hname
        cases hfill : fill given (m.name ++ ".") m.takes component a u with
        | mk filled v =>
          obtain ⟨result, changed, rest⟩ := filled
          rw [hfill] at hkeeps hname
          simp only [applying, ha, apply_filled hmatches hcomponent hnote hchecked hfill] at hrun
          cases hrun
          cases r with
          | error stop => exact .inr hkeeps
          | ok _ => exact ⟨hkeeps, htype, changed, rfl, hname⟩

/-- Members that are applied are noted in order. -/
theorem inOrder_traced {items : List (Member × List Argument)} (hitems : ∀ m ∈ items, Proper m.2)
    {stage stage' : Stage} (hstage : stage.Bears c.stage n) {s t : State} (hs : s.Traced n events)
    {applied : List Unit}
    (h : InOrder (applying given c) items (stage, s) applied (stage', t)) :
    t.Traced n (events ++ items.map (.assigned n ·.1.name)) ∧ stage'.Bears c.stage n := by
  induction items generalizing stage s events applied with
  | nil =>
    cases h
    exact ⟨by simpa using hs, hstage⟩
  | cons m rest ih =>
    cases h with
    | @cons _ _ _ x _ _ _ hfirst hrest =>
      obtain ⟨stage₁, u⟩ := x
      obtain ⟨hu, hstage₁⟩ := applying_traced hgiven (hitems m List.mem_cons_self) hstage hs hfirst
      have hall := ih (fun m hm => hitems m (List.mem_cons_of_mem _ hm)) hstage₁ hu hrest
      rwa [List.append_assoc] at hall

/-- If a member fails, then those before it are noted, and it may be. -/
theorem failsInOrder_traced {items : List (Member × List Argument)} (hitems : ∀ m ∈ items, Proper m.2)
    {stage stage' : Stage} (hstage : stage.Bears c.stage n) {s t : State} (hs : s.Traced n events)
    {stop : Stop} (h : FailsInOrder (applying given c) items (stage, s) stop (stage', t)) :
    ∃ noted, t.Traced n (events ++ noted) ∧ noted <+: items.map (.assigned n ·.1.name) := by
  obtain ⟨before, m, after, applied, ⟨stage₁, u⟩, rfl, hbefore, hfails⟩ := h
  obtain ⟨hu, hstage₁⟩ := inOrder_traced hgiven (fun m hm => hitems m (List.mem_append_left _ hm))
    hstage hs hbefore
  have hm : Proper m.2 := hitems m (List.mem_append_right _ List.mem_cons_self)
  rw [List.map_append, List.map_cons]
  rcases applying_traced hgiven hm hstage₁ hu hfails with ht | ht
  · exact ⟨_, ht, List.prefix_append _ _⟩
  · refine ⟨_, by rwa [List.append_assoc] at ht, ?_⟩
    exact ⟨after.map (.assigned n ·.1.name), by simp⟩

theorem finish_traced {stage : Stage} (hstage : stage.Bears c.stage n) {s : State}
    (hs : s.Traced n events) :
    (finish c stage s).2.Traced n (events ++ if c.kind = .builder then [.built n] else []) ∧
      ∀ i, (finish c stage s).1 = .ok i → ∃ component, i.value = .component component ∧
        component.name = n := by
  obtain ⟨htype, component, hcomponent, rfl⟩ := hstage
  have hmade : ∀ {noted : List Event} {t : State}, t.Traced component.name noted →
      ∃ i u, allocate (.component component) t = (.ok i, u) ∧ u.Traced component.name noted ∧
        i.value = .component component := fun ht => ⟨_, _, rfl, ht, rfl⟩
  by_cases hbuilder : c.kind = .builder
  · rw [if_pos hbuilder]
    obtain ⟨s₁, hnote, hnoted⟩ : ∃ s₁,
        journal (Journal.note (.built component.name)) s = (.ok (), s₁) ∧
          s₁.Traced component.name (events ++ [.built component.name]) :=
      ⟨_, rfl, hs.note_own rfl⟩
    have hfault := checkFault_traced hgiven c.type.shortName c.finishFault hnoted
    cases hchecked : checkFault c.type.shortName c.finishFault s₁ with
    | mk checked u =>
      rw [hchecked] at hfault
      cases checked with
      | error stop =>
        rw [finish_faulty htype hcomponent hbuilder hnote hchecked]
        exact ⟨hfault, fun i hi => by cases hi⟩
      | ok _ =>
        obtain ⟨i, v, hallocated, hv, hvalue⟩ := hmade hfault
        rw [finish_noted htype hcomponent hbuilder hnote hchecked, hallocated]
        refine ⟨hv, fun j hj => ⟨component, ?_, rfl⟩⟩
        cases hj
        exact hvalue
  · rw [if_neg hbuilder, List.append_nil]
    obtain ⟨i, v, hallocated, hv, hvalue⟩ := hmade hs
    rw [finish_unnoted htype hcomponent hbuilder, hallocated]
    refine ⟨hv, fun j hj => ⟨component, ?_, rfl⟩⟩
    cases hj
    exact hvalue

end

/-! ## All phases -/

theorem Built.traces {given : Provider} {c : Construction} {p : Prepared} {s t : State}
    {r : Except Stop Instance}
    (hgiven : ∀ n events, given.Keeps (.besides n) (State.Traced n events)) (hfits : p.Fits c)
    (hproper : Proper p.arguments) (h : Built given c p s (r, t)) : c.Traces s r t := by
  have hparameters : Proper p.parameters := fun a ha => hproper a (List.mem_append_left _ ha)
  have hitems : ∀ m ∈ c.members.zip p.members, Proper m.2 := fun m hm a ha =>
    hproper a (List.mem_append_right _ (List.mem_flatten.mpr ⟨m.2, (List.of_mem_zip hm).2, ha⟩))
  have hmembers : (c.members.zip p.members).map Prod.fst = c.members :=
    List.map_fst_zip (Nat.le_of_eq hfits.2.length_eq)
  have hnames : ∀ n : ComponentName, (c.members.zip p.members).map (.assigned n ·.1.name) =
      c.members.map fun m => Event.assigned n m.name := by
    intro n
    calc
      _ = ((c.members.zip p.members).map Prod.fst).map fun m => Event.assigned n m.name :=
        List.map_map.symm
      _ = _ := by rw [hmembers]
  have hgiven := hgiven ⟨c.type, s.journal.serials + 1⟩
  cases h with
  | uncreated hcreate =>
    obtain ⟨ht, -⟩ := create_traced hgiven rfl hparameters hcreate
    exact ⟨_, ht.2, by simp [Construction.trace], fun i hi => by cases hi⟩
  | unapplied hcreate happlied =>
    obtain ⟨hu, hstage⟩ := create_traced hgiven rfl hparameters hcreate
    obtain ⟨noted, ht, hnoted⟩ := failsInOrder_traced hgiven hitems (hstage _ rfl) hu happlied
    rw [hnames] at hnoted
    rw [List.append_assoc] at ht
    refine ⟨_, ht.2, ?_, fun i hi => by cases hi⟩
    exact List.cons_prefix_cons.mpr ⟨rfl, hnoted.trans (List.prefix_append _ _)⟩
  | finished hcreate happlied hfinish =>
    obtain ⟨hu, hstage⟩ := create_traced hgiven rfl hparameters hcreate
    obtain ⟨hv, hstage⟩ := inOrder_traced hgiven hitems (hstage _ rfl) hu happlied
    rw [hnames, List.append_assoc] at hv
    obtain ⟨ht, hmade⟩ := finish_traced hgiven hstage hv
    rw [hfinish] at ht hmade
    rw [List.append_assoc] at ht
    exact ⟨_, ht.2, List.prefix_refl _, fun i hi => ⟨rfl, hmade i hi⟩⟩

section

variable (given : Provider) (c : Construction) (node : Option (Node Instance)) (path : String)

/-- How a construction ends at a path, with what it takes from a node.  Each case begins with what
holds of the phases before it. -/
inductive Staged (s : State) : (Except Stop Instance × Option (Node Instance)) × State → Prop
  /-- Some class constraints fail.  Nothing has happened. -/
  | refused (hclass : c.constraints.filter (!·.holds s.property?) ≠ []) :
      Staged s ((.error (.error (.validation path
        ((c.constraints.filter (!·.holds s.property?)).map (·.complaint s.property? path)))),
          node), s)
  /-- The search for a substitutor does not return. -/
  | exhausted {t : State} (hclass : ∀ x ∈ c.constraints, x.holds s.property?)
      (hsubstitutor : given.substitutor s = (.error .exhausted, t)) :
      Staged s ((.error .exhausted, node), t)
  /-- A point cannot be resolved. -/
  | unresolved {t u : State} {substitutor : Option Substitutor} {f : Focus} {stop : Stop}
      (hclass : ∀ x ∈ c.constraints, x.holds s.property?)
      (hsubstitutor : given.substitutor s = (.ok substitutor, t))
      (hpoints : FailsInOrder (resolving given) c.points
        ({ node, context := { path, substitutor } }, t) stop (f, u)) :
      Staged s ((.error stop, f.node), u)
  /-- All points are resolved, and some point constraints fail.  Nothing is created. -/
  | invalid {t u : State} {substitutor : Option Substitutor} {f : Focus} {arguments : List Argument}
      (hclass : ∀ x ∈ c.constraints, x.holds s.property?)
      (hsubstitutor : given.substitutor s = (.ok substitutor, t))
      (hpoints : InOrder (resolving given) c.points
        ({ node, context := { path, substitutor } }, t) arguments (f, u))
      (hempty : emptyComplaints c.points arguments path ≠ []) :
      Staged s ((.error (.error (.validation path (emptyComplaints c.points arguments path))),
        f.node), u)
  /-- The construction is built; before that, only the log tells of it. -/
  | built {t u v : State} {substitutor : Option Substitutor} {f : Focus} {p : Prepared}
      {log : List LogRecord} {r : Except Stop Instance}
      (hclass : ∀ x ∈ c.constraints, x.holds s.property?)
      (hsubstitutor : given.substitutor s = (.ok substitutor, t))
      (hpoints : InOrder (resolving given) c.points
        ({ node, context := { path, substitutor } }, t) p.arguments (f, u))
      (hempty : emptyComplaints c.points p.arguments path = [])
      (hfits : p.Fits c)
      (hbuilt : Built given c p { u with journal := { u.journal with log } } (r, v))
      (htraces : c.Traces u r v) :
      Staged s ((r, f.node), v)

end

theorem InOrder.proper {given : Provider} {ps : List InjectionPoint} {x y : Focus × State}
    {arguments : List Argument} (h : InOrder (resolving given) ps x arguments y) :
    Proper arguments := by
  have hsteps : Remit.free.Keeps fun _ => True :=
    Lasting.keeps ⟨fun _ _ _ => trivial, fun _ _ _ => trivial, fun _ _ _ => trivial,
      fun _ _ _ _ => trivial⟩ (fun _ _ => trivial) fun _ => trivial
  have hgiven : given.Keeps .free fun _ => True :=
    .answers (fun _ => trivial) (fun _ _ => trivial) (fun _ _ _ => trivial) (fun _ _ _ => trivial)
      fun _ _ _ _ => trivial
  induction h with
  | nil => exact fun a ha => by cases ha
  | @cons p rest x _ _ argument _ hfirst _ ih =>
    have hpoint := (Program.keeps hsteps hgiven (Program.resolvePoint (x := p) x.1 trivial) x.2
      trivial).2
    intro a ha
    rcases List.mem_cons.mp ha with rfl | ha
    · simp only [resolving] at hfirst
      have hok : (resolvePoint given p x.1 x.2).1.1 = .ok a := congrArg Prod.fst hfirst
      rw [hok] at hpoint
      exact hpoint
    · exact ih a ha

theorem attempt_stops {α : Type} {m : Assemble α} {s t : State} {stop : Stop}
    (h : attempt m s = (.error stop, t)) : stop = .exhausted := by
  rw [run_attempt] at h
  split at h <;> cases h
  rfl

/-- A substitutor that cannot be had is done without. -/
theorem substitutor_stops {call : Factory → Assemble Instance} {s t : State} {stop : Stop}
    (h : currentSubstitutor call s = (.error stop, t)) : stop = .exhausted := by
  cases hf : s.factory? Substitutor.key with
  | none =>
    simp only [currentSubstitutor, run_bind, run_get, hf, run_pure] at h
    cases h
  | some f =>
    cases hattempt : attempt (do
        let i ← call f
        ofExcept (i.downcast TypePath.substitutor Substitutor.name)) s with
    | mk r u =>
      rw [currentSubstitutor, run_bind, run_get] at h
      simp only [hf, run_bind _ _ s, hattempt] at h
      cases r with
      | error stop' =>
        cases h
        exact attempt_stops hattempt
      | ok r =>
        cases r with
        | ok i =>
          dsimp only at h
          generalize i.value = value at h
          cases value <;> cases h
        | error cause => cases h

/-- How preparing ends: as the construction does, or with all arguments, of which none is missing. -/
theorem prepare_staged (given : Provider) (c : Construction) (node : Option (Node Instance))
    (path : String) (s : State)
    (hstops : ∀ stop t, given.substitutor s = (.error stop, t) → stop = .exhausted) :
    match prepare given c node path s with
    | ((.error stop, node'), t) => Staged given c node path s ((.error stop, node'), t)
    | ((.ok p, node'), u) => ∃ t substitutor f, (∀ x ∈ c.constraints, x.holds s.property?) ∧
        given.substitutor s = (.ok substitutor, t) ∧
          InOrder (resolving given) c.points ({ node, context := { path, substitutor } }, t)
            p.arguments (f, u) ∧
            emptyComplaints c.points p.arguments path = [] ∧ p.Fits c ∧ node' = f.node := by
  -- one case for each way in which a phase may end, in the order of the phases
  have hclasses := c.classFailures_eq s.property? path
  cases hfailures : c.classFailures s.property? path with
  | cons failure failures =>
    have hrefused : prepare given c node path s =
        ((.error (.error (.validation path (failure :: failures))), node), s) := by
      simp [prepare, hfailures]
    rw [hrefused, ← hfailures, hclasses]
    refine .refused fun hnone => ?_
    rw [hfailures, hnone] at hclasses
    cases hclasses
  | nil =>
    have hclass : ∀ x ∈ c.constraints, x.holds s.property? := by
      rw [hfailures] at hclasses
      simpa using hclasses.symm
    cases hsubstitutor : given.substitutor s with
    | mk r t =>
      cases r with
      | error stop =>
        cases hstops stop t hsubstitutor
        have hstopped : prepare given c node path s = ((.error .exhausted, node), t) := by
          simp [prepare, hfailures, hsubstitutor]
        rw [hstopped]
        exact .exhausted hclass hsubstitutor
      | ok substitutor =>
        have hall := resolveAll_ends given c { node, context := { path, substitutor } } t
        cases hresolved : resolveAll given c { node, context := { path, substitutor } } t with
        | mk ended u =>
          obtain ⟨r, f⟩ := ended
          rw [hresolved] at hall
          cases r with
          | error stop =>
            have hstopped : prepare given c node path s = ((.error stop, f.node), u) := by
              simp [prepare, hfailures, hsubstitutor, hresolved]
            rw [hstopped]
            exact .unresolved hclass hsubstitutor hall
          | ok p =>
            obtain ⟨hfits, hpoints⟩ := hall
            have harguments := argumentFailures_eq hfits path
            cases hempty : argumentFailures c p path with
            | cons failure failures =>
              have hinvalid : prepare given c node path s =
                  ((.error (.error (.validation path (failure :: failures))), f.node), u) := by
                simp [prepare, hfailures, hsubstitutor, hresolved, hempty]
              rw [hempty] at harguments
              rw [hinvalid, harguments]
              exact .invalid hclass hsubstitutor hpoints (by rw [← harguments]; simp)
            | nil =>
              have hprepared : prepare given c node path s = ((.ok p, f.node), u) := by
                simp [prepare, hfailures, hsubstitutor, hresolved, hempty]
              rw [hempty] at harguments
              rw [hprepared]
              exact ⟨t, substitutor, f, hclass, rfl, hpoints, harguments.symm, hfits, rfl⟩

theorem construct_unprepared {given : Provider} {c : Construction}
    {node node' : Option (Node Instance)} {path : String} {s u : State} {stop : Stop}
    (h : prepare given c node path s = ((.error stop, node'), u)) :
    construct given c node path s = ((.error stop, node'), u) := by
  simp [construct, h]

/-- After it is prepared, a construction is built; before that, only the log tells of it. -/
theorem construct_prepared {given : Provider} {c : Construction} {node node' : Option (Node Instance)}
    {path : String} {s u : State} {p : Prepared}
    (h : prepare given c node path s = ((.ok p, node'), u)) :
    ∃ log r v, (∃ message fields, Journal.debug message fields u.journal =
        ((), { u.journal with log })) ∧
      build given c p.parameters p.members { u with journal := { u.journal with log } } = (r, v) ∧
      construct given c node path s = ((r, node'), v) := by
  obtain ⟨log, hlog⟩ : ∃ log, Journal.debug ("构建实例, 参数: " ++ p.account)
      [("target_type", c.type.shortName), ("kind", c.kind.name), ("path", path)] u.journal =
        ((), { u.journal with log }) := ⟨_, rfl⟩
  cases hbuild : build given c p.parameters p.members { u with journal := { u.journal with log } } with
  | mk r v => exact ⟨log, r, v, ⟨_, _, hlog⟩, hbuild, by simp [construct, h, hlog, hbuild]⟩

/-- **Constructions are staged.**  In whatever state, and with whatever points, members, constraints,
kind and node, a construction checks its class constraints, resolves its points, checks their
constraints, and then creates, changes and finishes its component; the first phase that fails ends
it. -/
theorem Assemble.construct_staged (depth : Nat) (c : Construction) (node : Option (Node Instance))
    (path : String) (s : State) :
    Staged (Provider.of (callWithin depth)) c node path s
      (construct (Provider.of (callWithin depth)) c node path s) := by
  have hprepare := prepare_staged (Provider.of (callWithin depth)) c node path s
    fun stop t h => substitutor_stops h
  cases hprepared : prepare (Provider.of (callWithin depth)) c node path s with
  | mk ended u =>
    obtain ⟨r, node'⟩ := ended
    rw [hprepared] at hprepare
    cases r with
    | error stop =>
      rw [construct_unprepared hprepared]
      exact hprepare
    | ok p =>
      obtain ⟨t, substitutor, f, hclass, hsubstitutor, hpoints, hempty, hfits, rfl⟩ := hprepare
      obtain ⟨log, r, v, -, hbuild, hrun⟩ := construct_prepared hprepared
      have hbuilt := build_ends (Provider.of (callWithin depth)) c p
        { u with journal := { u.journal with log } }
      rw [hbuild] at hbuilt
      rw [hrun]
      have htraces := hbuilt.traces (fun n events => State.Traced.provider_keeps
        (State.Traced.keeps_callWithin depth)) hfits hpoints.proper
      exact .built hclass hsubstitutor hpoints hempty hfits hbuilt htraces

end ComponentAssembly

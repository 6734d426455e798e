import ComponentAssembly.Proofs.Staging

/-!
# Arguments are consumed by position

A step takes its arguments from a queue.  A take that consumes one sees the first that is left, and
removes it however it ends:

    Consume.One m f        m fails on an empty queue, and otherwise makes f of the first argument
    mode.reads given       what a take with a mode makes of an argument
    Sees ... n s take      a take after n others that consume sees the argument that was pushed as
                           number n

Of several takes made one after the other, each sees what it would see at its position.  A construction
pushes the arguments of the points of each step in order, so a take of the step sees the argument of
the point whose number is that of the takes before it that consume one (`Arguments.by_position`).
-/

namespace ComponentAssembly

open Assemble

/-! ## What a take makes of its argument -/

namespace Assemble

/-- The one instance of an argument, unless that is absent. -/
def takeOptional (given : Provider) (path : String) (argument : Argument) (type : TypePath) :
    Assemble (Option Instance) := do
  if argument.isAbsent then
    return none
  return some (← takeOne given path argument type)

end Assemble

/-- What a take makes of an argument whose point a path names. -/
def TakeMode.reads (given : Provider) (type : TypePath) (path : String) (entry : ArgumentEntry) :
    TakeMode → Assemble FieldValue
  | .object => return .one (← takeOne given path entry.argument type)
  | .optional => return .ofOption (← takeOptional given path entry.argument type)
  | .value => return .one (← takeOne given path entry.argument type >>= duplicate)
  | .optionalValue =>
    return .ofOption (← takeOptional given path entry.argument type >>= Option.mapM duplicate)
  | .all => return .many (← takeAll path entry.argument type)
  | .allValues => return .many (← takeAll path entry.argument type >>= List.mapM duplicate)
  | .supplier => return .supplier (← takeSupplier path entry type)

/-! ## Complaints -/

/-- A complaint that names a point: nothing is there, or something of another type. -/
inductive Stop.Names (path : String) : Stop → Prop
  | missing : Names path (.error (.missingValue path))
  | mismatch (expected : String) : Names path (.error (.typeMismatch path expected))

def Argument.isDeferred : Argument → Bool
  | .deferred _ => true
  | _ => false

/-- If a step fails, its complaint names a point. -/
abbrev Assemble.Blames (path : String) {α : Type} (m : Assemble α) : Prop :=
  Agrees (fun _ => True) (StopsBy (Stop.Names path)) m m

section

variable {path : String} {argument : Argument}

theorem downcast_blames (i : Instance) (type : TypePath) :
    Blames path (ofExcept (i.downcast type path)) := by
  refine .ofExcept (fun _ _ => trivial) fun cause hcause => ?_
  unfold Instance.downcast at hcause
  split at hcause
  · cases hcause
  · cases hcause
    exact .mismatch type.path

theorem mapM_blames {α β : Type} {f : α → Assemble β} (h : ∀ a, Blames path (f a)) (as : List α) :
    Blames path (as.mapM f) := by
  induction as with
  | nil =>
    rw [List.mapM_nil]
    exact .ok trivial
  | cons a rest ih =>
    rw [List.mapM_cons]
    exact (h a).andThen fun _ _ => ih.andThen fun _ _ => .ok trivial

theorem takeOne_blames (given : Provider) (type : TypePath) (h : argument.isDeferred = false) :
    Blames path (takeOne given path argument type) := by
  cases argument with
  | object i => exact downcast_blames i type
  | scalar _ i => exact downcast_blames i type
  | objects is =>
    match is with
    | [i] => exact downcast_blames i type
    | [] => exact .raise .missing
    | _ :: _ :: _ => exact .raise .missing
  | deferred _ => cases h
  | absent => exact .raise .missing

theorem takeAll_blames (type : TypePath) (h : argument.isDeferred = false) :
    Blames path (takeAll path argument type) := by
  cases argument with
  | objects is => exact mapM_blames (fun i => downcast_blames i type) is
  | object i => exact (downcast_blames i type).andThen fun _ _ => .ok trivial
  | scalar _ i => exact (downcast_blames i type).andThen fun _ _ => .ok trivial
  | absent => exact .ok trivial
  | deferred _ => cases h

theorem takeOptional_blames (given : Provider) (type : TypePath) (h : argument.isDeferred = false) :
    Blames path (takeOptional given path argument type) := by
  unfold takeOptional
  split
  · exact .ok trivial
  · exact (takeOne_blames given type h).andThen fun _ _ => .ok trivial

theorem takeSupplier_blames (entry : ArgumentEntry) (type : TypePath) :
    Blames path (takeSupplier path entry type) := by
  unfold takeSupplier
  cases entry.argument with
  | deferred _ => exact .lift fun _ _ => trivial
  | object _ => exact .lift fun _ _ => trivial
  | scalar _ _ => exact .raise .missing
  | objects _ => exact .raise .missing
  | absent => exact .raise .missing

theorem duplicate_blames (i : Instance) : Blames path (duplicate i) :=
  .lift fun _ _ => trivial

theorem duplicateOption_blames (result : Option Instance) :
    Blames path (Option.mapM duplicate result) := by
  cases result with
  | none => exact .ok trivial
  | some i => exact (duplicate_blames i).andThen fun _ _ => .ok trivial

variable (path) in
/-- What a take complains of names the point of its argument, unless that is put off. -/
theorem reads_blames (given : Provider) (type : TypePath) (mode : TakeMode) {entry : ArgumentEntry}
    (h : entry.argument.isDeferred = false) : Blames path (mode.reads given type path entry) := by
  have hone : Blames path _ := takeOne_blames given type h
  have hoptional : Blames path _ := takeOptional_blames given type h
  have hall : Blames path _ := takeAll_blames type h
  cases mode with
  | object => exact hone.andThen fun _ _ => .ok trivial
  | optional => exact hoptional.andThen fun _ _ => .ok trivial
  | value =>
    exact (hone.andThen fun i _ => duplicate_blames i).andThen fun _ _ => .ok trivial
  | optionalValue =>
    exact (hoptional.andThen fun result _ => duplicateOption_blames result).andThen fun _ _ =>
      .ok trivial
  | all => exact hall.andThen fun _ _ => .ok trivial
  | allValues =>
    exact (hall.andThen fun is _ => mapM_blames duplicate_blames is).andThen fun _ _ => .ok trivial
  | supplier => exact (takeSupplier_blames entry type).andThen fun _ _ => .ok trivial

end

/-! ## Steps that consume one argument -/

namespace Consume

variable {α β : Type}

@[simp]
theorem run_bind (m : Consume α) (f : α → Consume β) (a : Arguments) (s : State) :
    (m >>= f : Consume β) a s = match m a s with
      | ((.ok x, b), t) => f x b t
      | ((.error stop, b), t) => ((.error stop, b), t) := by
  show ExceptT.bindCont f (m a s).1.1 (m a s).1.2 (m a s).2 = _
  rcases m a s with ⟨⟨_ | _, _⟩, _⟩ <;> rfl

@[simp]
theorem run_lift (step : Assemble α) (a : Arguments) (s : State) :
    lift step a s = (((step s).1, a), (step s).2) := rfl

/-- A step that consumes one argument and makes `f` of it.  It sees no other argument, and however it
ends, it leaves those after the first. -/
structure One (m : Consume α) (f : String → ArgumentEntry → Assemble α) : Prop where
  exhausted : ∀ owner s, m { owner, entries := [] } s =
    ((.error (.error (.missingValue (owner ++ "#<参数已耗尽>"))), { owner, entries := [] }), s)
  first : ∀ owner entry rest s, m { owner, entries := entry :: rest } s =
    let (r, t) := f (owner ++ "." ++ entry.point) entry s
    ((r, { owner, entries := rest }), t)

namespace One

theorem run {m : Consume α} {f : String → ArgumentEntry → Assemble α} (h : One m f) {owner : String}
    {entry : ArgumentEntry} {s t : State} {r : Except Stop α}
    (hf : f (owner ++ "." ++ entry.point) entry s = (r, t)) (rest : List ArgumentEntry) :
    m { owner, entries := entry :: rest } s = ((r, { owner, entries := rest }), t) := by
  rw [h.first, hf]

theorem next : One Consume.next fun _ entry => pure entry where
  exhausted _ _ := rfl
  first _ _ _ _ := rfl

/-- The next argument, and what is made of it. -/
theorem nextAt (f : String → ArgumentEntry → Assemble α) :
    One (do
      let entry ← Consume.next
      lift (f (← pathOf entry) entry)) f where
  exhausted _ _ := rfl
  first _ _ _ _ := rfl

theorem andThen {m : Consume α} {f : String → ArgumentEntry → Assemble α} {n : α → Consume β}
    {g : α → Assemble β} (h : One m f) (hn : ∀ x, n x = lift (g x)) :
    One (m >>= n) fun path entry => f path entry >>= g where
  exhausted owner s := by simp [h.exhausted owner s]
  first owner entry rest s := by
    cases hf : f (owner ++ "." ++ entry.point) entry s with
    | mk r t =>
      cases r with
      | error stop => simp [h.run hf rest, hf]
      | ok x =>
        simp only [run_bind, Assemble.run_bind, h.run hf rest, hf, hn, run_lift]
        rfl

/-- A look at whether the next argument is absent shows nothing of those after it. -/
theorem peek {m n : Consume α} {f g : String → ArgumentEntry → Assemble α} (hm : One m f)
    (hn : One n g) : One (do if (← getThe Arguments).nextIsAbsent then m else n)
      fun path entry => if entry.argument.isAbsent then f path entry else g path entry where
  exhausted := hm.exhausted
  first owner entry rest s := by
    show (if entry.argument.isAbsent then m else n) _ s = _
    cases entry.argument.isAbsent with
    | true => exact hm.first owner entry rest s
    | false => exact hn.first owner entry rest s

theorem skip : One Consume.skip fun _ _ => pure () :=
  next.andThen fun _ => rfl

section

variable (given : Provider) (type : TypePath)

theorem one : One (Consume.one given type)
    fun path entry => takeOne given path entry.argument type :=
  nextAt _

theorem optional : One (Consume.optional given type)
    fun path entry => takeOptional given path entry.argument type :=
  peek (skip.andThen (g := fun _ => pure none) fun _ => rfl)
    ((one given type).andThen (g := fun i => pure (some i)) fun _ => rfl)

theorem value : One (Consume.value given type)
    fun path entry => takeOne given path entry.argument type >>= duplicate :=
  (one given type).andThen fun _ => rfl

theorem optionalValue : One (Consume.optionalValue given type)
    fun path entry => takeOptional given path entry.argument type >>= Option.mapM duplicate :=
  (optional given type).andThen fun
    | none => rfl
    | some _ => rfl

theorem all : One (Consume.all type) fun path entry => takeAll path entry.argument type :=
  nextAt _

theorem allValues : One (Consume.allValues type)
    fun path entry => takeAll path entry.argument type >>= List.mapM duplicate :=
  (all type).andThen fun _ => rfl

theorem supplier : One (Consume.supplier type) fun path entry => takeSupplier path entry type :=
  nextAt _

/-- A take with a mode makes of the next argument what the mode says. -/
theorem typed (mode : TakeMode) : One ((Take.typed mode type).perform given)
    fun path entry => mode.reads given type path entry :=
  match mode with
  | .object => (one given type).andThen fun _ => rfl
  | .optional => (optional given type).andThen fun _ => rfl
  | .value => (value given type).andThen fun _ => rfl
  | .optionalValue => (optionalValue given type).andThen fun _ => rfl
  | .all => (all type).andThen fun _ => rfl
  | .allValues => (allValues type).andThen fun _ => rfl
  | .supplier => (supplier type).andThen fun _ => rfl

end

end One

end Consume

/-! ## Takes -/

def Take.consumes : Take → Bool
  | .typed .. => true
  | .skip => true
  | .remaining => false
  | .nextIsAbsent => false

section

variable (given : Provider) (owner : String) (entries : List ArgumentEntry) (n : Nat) (s : State)

/-- How a take ends that comes after `n` others that consume, where all arguments of the queue were
these entries at first. -/
inductive Sees : Take → Except Stop FieldValue → State → Prop
  /-- It sees the argument that was pushed as number `n`, and complains of no other. -/
  | typed {mode : TakeMode} {type : TypePath} {entry : ArgumentEntry} {r : Except Stop FieldValue}
      {t : State} (hentry : entries[n]? = some entry)
      (hreads : mode.reads given type (owner ++ "." ++ entry.point) entry s = (r, t))
      (hnames : ∀ stop, r = .error stop → entry.argument.isDeferred = false →
        stop.Names (owner ++ "." ++ entry.point)) : Sees (.typed mode type) r t
  | skip {entry : ArgumentEntry} (hentry : entries[n]? = some entry) :
      Sees .skip (.ok (.text "skipped")) s
  /-- No argument is left. -/
  | exhausted {take : Take} (hconsumes : take.consumes) (hend : entries.length ≤ n) :
      Sees take (.error (.error (.missingValue (owner ++ "#<参数已耗尽>")))) s
  | remaining : Sees .remaining (.ok (.text (toString (entries.length - n)))) s
  | nextIsAbsent : Sees .nextIsAbsent
      (.ok (.text (if entries[n]?.all (·.argument.isAbsent) then "true" else "false"))) s

/-- A take that consumes finds no argument. -/
theorem Take.perform_exhausted {take : Take} (h : take.consumes) :
    take.perform given { owner, entries := [] } s =
      ((.error (.error (.missingValue (owner ++ "#<参数已耗尽>"))), { owner, entries := [] }), s) :=
  match take, h with
  | .typed mode type, _ => (Consume.One.typed given type mode).exhausted owner s
  | .skip, _ => rfl

theorem Arguments.nextIsAbsent_eq (a : Arguments) :
    a.nextIsAbsent = a.entries.head?.all (·.argument.isAbsent) := by
  unfold Arguments.nextIsAbsent
  cases a.entries <;> rfl

/-- A take sees the first of the arguments that are left. -/
theorem Take.perform_sees (take : Take) : ∃ r t,
    take.perform given { owner, entries := entries.drop n } s =
      ((r, take.after { owner, entries := entries.drop n }), t) ∧
    Sees given owner entries n s take r t := by
  cases hconsumes : take.consumes with
  | false =>
    match take, hconsumes with
    | .remaining, _ =>
      refine ⟨_, s, rfl, ?_⟩
      rw [Arguments.remaining, List.length_drop]
      exact .remaining
    | .nextIsAbsent, _ =>
      refine ⟨_, s, rfl, ?_⟩
      rw [Arguments.nextIsAbsent_eq, List.head?_drop]
      exact .nextIsAbsent
  | true =>
    -- `drop n` begins with the entry at `n`, if there is one
    cases hentry : entries[n]? with
    | none =>
      have hend : entries.length ≤ n := List.getElem?_eq_none_iff.mp hentry
      have hleft : take.after { owner, entries := [] } = { owner, entries := [] } := by
        cases take <;> rfl
      rw [List.drop_of_length_le hend, hleft]
      exact ⟨_, s, Take.perform_exhausted given owner s hconsumes, .exhausted hconsumes hend⟩
    | some entry =>
      obtain ⟨hn, hget⟩ := List.getElem?_eq_some_iff.mp hentry
      rw [List.drop_eq_getElem_cons hn, hget]
      match take, hconsumes with
      | .skip, _ => exact ⟨_, s, rfl, .skip hentry⟩
      | .typed mode type, _ =>
        cases hreads : mode.reads given type (owner ++ "." ++ entry.point) entry s with
        | mk r t =>
          have hfirst := (Consume.One.typed given type mode).run hreads (entries.drop (n + 1))
          refine ⟨r, t, hfirst, .typed hentry hreads fun stop hstop hargument => ?_⟩
          have hblames := reads_blames (owner ++ "." ++ entry.point) given type mode hargument
          have hresult := (hblames s trivial).result
          rwa [hreads, hstop] at hresult

end

/-- A take that consumes removes one argument. -/
theorem Take.after_drop (take : Take) (owner : String) (entries : List ArgumentEntry) (n : Nat) :
    take.after { owner, entries := entries.drop n } =
      { owner, entries := entries.drop (n + if take.consumes then 1 else 0) } := by
  cases take <;> simp [Take.after, Take.consumes, Arguments.rest]

/-! ## Sequences of takes -/

namespace Arguments

/-- The queue of an owner to which entries are pushed in order. -/
def pushed (owner : String) (entries : List ArgumentEntry) : Arguments :=
  entries.foldl (fun a entry => a.push entry.point entry.key entry.argument) { owner }

@[simp]
theorem pushed_eq (owner : String) (entries : List ArgumentEntry) :
    pushed owner entries = { owner, entries } := by
  -- for the induction, some entries may be there already
  have hfrom : ∀ before : List ArgumentEntry,
      entries.foldl (fun a entry => a.push entry.point entry.key entry.argument)
        { owner, entries := before } = ({ owner, entries := before ++ entries } : Arguments) := by
    induction entries with
    | nil => simp
    | cons entry rest ih =>
      intro before
      rw [List.foldl_cons, push, ih, List.append_assoc]
      rfl
  exact hfrom []

/-- Makes takes from a queue one after the other, each in a state of its own, however those before it
end. -/
def takeEach (given : Provider) :
    List (Take × State) → Arguments → List (Except Stop FieldValue × State) × Arguments
  | [], a => ([], a)
  | (take, s) :: rest, a =>
    let ((r, a), t) := (take.perform given).run a s
    let (ended, a) := takeEach given rest a
    ((r, t) :: ended, a)

theorem takeEach_cons {given : Provider} {take : Take} {calls : List (Take × State)}
    {a b left : Arguments} {s t : State} {r : Except Stop FieldValue}
    {ended : List (Except Stop FieldValue × State)} (hfirst : take.perform given a s = ((r, b), t))
    (hrest : takeEach given calls b = (ended, left)) :
    takeEach given ((take, s) :: calls) a = ((r, t) :: ended, left) := by
  have hrun : (take.perform given).run a s = ((r, b), t) := hfirst
  simp only [takeEach, hrun, hrest]

end Arguments

/-- How many takes consume an argument. -/
def Take.consumed (calls : List (Take × State)) : Nat :=
  calls.countP (·.1.consumes)

@[simp]
theorem Take.consumed_cons (take : Take) (s : State) (calls : List (Take × State)) :
    Take.consumed ((take, s) :: calls) = (if take.consumes then 1 else 0) + Take.consumed calls := by
  rw [Take.consumed, List.countP_cons, Nat.add_comm]
  rfl

section

variable (given : Provider) (owner : String) (entries : List ArgumentEntry)

/-- Each of several takes sees the argument whose number is that of the takes before it that
consume. -/
theorem takeEach_sees (calls : List (Take × State)) (n : Nat) : ∃ ended,
    Arguments.takeEach given calls { owner, entries := entries.drop n } =
      (ended, { owner, entries := entries.drop (n + Take.consumed calls) }) ∧
    ended.length = calls.length ∧
    ∀ (i : Nat) take s, calls[i]? = some (take, s) → ∃ r t, ended[i]? = some (r, t) ∧
      Sees given owner entries (n + Take.consumed (calls.take i)) s take r t := by
  induction calls generalizing n with
  | nil => exact ⟨[], rfl, rfl, fun i take s h => by cases h⟩
  | cons call rest ih =>
    obtain ⟨take, s⟩ := call
    obtain ⟨r, t, hfirst, hsees⟩ := Take.perform_sees given owner entries n s take
    rw [Take.after_drop] at hfirst
    obtain ⟨ended, hrest, hlength, hall⟩ := ih (n + if take.consumes then 1 else 0)
    refine ⟨(r, t) :: ended, ?_, congrArg (· + 1) hlength, fun i take' s' hcall => ?_⟩
    · rw [Take.consumed_cons, ← Nat.add_assoc]
      exact Arguments.takeEach_cons hfirst hrest
    · cases i with
      | zero =>
        cases hcall
        exact ⟨r, t, rfl, hsees⟩
      | succ i =>
        obtain ⟨r', t', hended, hsees'⟩ := hall i take' s' hcall
        rw [List.take_succ_cons, Take.consumed_cons, ← Nat.add_assoc]
        exact ⟨r', t', hended, hsees'⟩

/-- A take that fails has removed its argument, and with none left even an optional one fails. -/
example (given : Provider) (key : Key) (type : TypePath) (s : State) :
    (Arguments.takeEach given
      [(.typed .object type, s), (.nextIsAbsent, s), (.typed .optional type, s)]
      (.pushed "Sample" [{ point := "missing", key, argument := .absent }])).1 =
      [(.error (.error (.missingValue "Sample.missing")), s), (.ok (.text "true"), s),
        (.error (.error (.missingValue "Sample#<参数已耗尽>")), s)] := rfl

/-! ## Steps of a construction -/

/-- How takes end that fill a component one after the other, the first of which comes after `n` others
that consume.  The first to fail ends them. -/
inductive Fills (label : String) : Nat → List FieldTake → Component → State →
    Except Stop Unit → Component → State → Prop
  | done {n : Nat} {component : Component} {s : State} :
      Fills label n [] component s (.ok ()) component s
  | stopped {n : Nat} {t : FieldTake} {rest : List FieldTake} {component : Component} {s u : State}
      {stop : Stop} (hsees : Sees given owner entries n s t.take (.error stop) u) :
      Fills label n (t :: rest) component s (.error stop) component u
  | filled {n : Nat} {t : FieldTake} {rest : List FieldTake} {component component' : Component}
      {s u v : State} {value : FieldValue} {r : Except Stop Unit}
      (hsees : Sees given owner entries n s t.take (.ok value) u)
      (hrest : Fills label (n + if t.take.consumes then 1 else 0) rest
        (component.push (label ++ t.field) value) u r component' v) :
      Fills label n (t :: rest) component s r component' v

theorem fill_sees (label : String) (takes : List FieldTake) (n : Nat) (component : Component)
    (s : State) : ∃ r component' left t,
      fill given label takes component { owner, entries := entries.drop n } s =
        ((r, component', left), t) ∧
      Fills given owner entries label n takes component s r component' t := by
  induction takes generalizing n component s with
  | nil => exact ⟨_, _, _, _, rfl, .done⟩
  | cons t rest ih =>
    obtain ⟨r, u, hrun, hsees⟩ := Take.perform_sees given owner entries n s t.take
    rw [Take.after_drop] at hrun
    cases r with
    | error stop => exact ⟨_, _, _, _, fill_stopped hrun, .stopped hsees⟩
    | ok value =>
      obtain ⟨r, component', left, v, hfill, hfills⟩ := ih (n + if t.take.consumes then 1 else 0)
        (component.push (label ++ t.field) value) u
      exact ⟨r, component', left, v, (fill_next hrun).trans hfill, .filled hsees hfills⟩

end

/-- The arguments of points, by position. -/
def entriesOf (points : List InjectionPoint) (values : List Argument) : List ArgumentEntry :=
  List.zipWith (fun p argument => { point := p.name, key := p.key, argument }) points values

theorem Arguments.ofPoints_eq (owner : String) (points : List InjectionPoint)
    (values : List Argument) : ofPoints owner points values =
      { owner, entries := (entriesOf points values).drop 0 } := by
  rw [ofPoints, entriesOf, List.drop_zero, ← List.map_uncurry_zip_eq_zipWith]
  rfl

section

variable (given : Provider) (c : Construction)

/-- How the stage of a construction is created with values for its parameters. -/
inductive Creates (values : List Argument) (s : State) : Except Stop Stage → State → Prop
  /-- It fails before its first take. -/
  | faulty {component : Component} {u t : State} {stop : Stop}
      (hnew : State.onJournal (Journal.newComponent c.type) s = (component, u))
      (hfault : checkFault c.type.shortName c.fault u = (.error stop, t)) :
      Creates values s (.error stop) t
  | filled {component component' : Component} {u v t : State} {r : Except Stop Unit}
      (hnew : State.onJournal (Journal.newComponent c.type) s = (component, u))
      (hfault : checkFault c.type.shortName c.fault u = (.ok (), v))
      (hfills : Fills given c.type.shortName (entriesOf c.parameters values) "" 0 c.takes component v
        r component' t) :
      Creates values s (r.map fun () => { type := c.stage, component := some component' }) t

theorem create_ends {values : List Argument} {s t : State} {r : Except Stop Stage}
    {left : Arguments}
    (h : create given c (.ofPoints c.type.shortName c.parameters values) s = ((r, left), t)) :
    Creates given c values s r t := by
  cases hnew : State.onJournal (Journal.newComponent c.type) s with
  | mk component u =>
    cases hfault : checkFault c.type.shortName c.fault u with
    | mk checked v =>
      cases checked with
      | error stop =>
        cases (create_faulty hnew hfault).symm.trans h
        exact .faulty hnew hfault
      | ok _ =>
        obtain ⟨r, component', left, t, hfill, hfills⟩ := fill_sees given c.type.shortName
          (entriesOf c.parameters values) "" c.takes 0 component v
        rw [← Arguments.ofPoints_eq] at hfill
        cases (create_filled hnew hfault hfill).symm.trans h
        exact .filled hnew hfault hfills

/-- How a member is applied to a stage with values for its points. -/
inductive Applies (m : Member) (values : List Argument) (stage : Stage) (s : State) :
    Except Stop Unit → Stage → State → Prop
  | mismatched (htype : stage.type ≠ m.stage) :
      Applies m values stage s (.error (.error (stageMismatch c.type m.stage))) stage s
  | foreign (htype : stage.type = m.stage) (hcomponent : stage.component = none) :
      Applies m values stage s (.ok ()) stage s
  /-- It fails before its first take. -/
  | faulty {component : Component} {u t : State} {stop : Stop} (htype : stage.type = m.stage)
      (hcomponent : stage.component = some component)
      (hnote : State.onJournal (Journal.note (.assigned component.name m.name)) s = ((), u))
      (hfault : checkFault c.type.shortName m.fault u = (.error stop, t)) :
      Applies m values stage s (.error stop) stage t
  | filled {component component' : Component} {u v t : State} {r : Except Stop Unit}
      (htype : stage.type = m.stage) (hcomponent : stage.component = some component)
      (hnote : State.onJournal (Journal.note (.assigned component.name m.name)) s = ((), u))
      (hfault : checkFault c.type.shortName m.fault u = (.ok (), v))
      (hfills : Fills given (c.type.shortName ++ "." ++ m.name) (entriesOf m.points values)
        (m.name ++ ".") 0 m.takes component v r component' t) :
      Applies m values stage s r { stage with component := some component' } t

theorem apply_ends (m : Member) (values : List Argument) (stage : Stage) (s : State) :
    ∃ r stage' left t, Assemble.apply given c m stage
      (.ofPoints (c.type.shortName ++ "." ++ m.name) m.points values) s = ((r, stage', left), t) ∧
        Applies given c m values stage s r stage' t := by
  by_cases htype : stage.type ≠ m.stage
  · exact ⟨_, _, _, _, apply_mismatched htype, .mismatched htype⟩
  · have htype : stage.type = m.stage := not_not.mp htype
    cases hcomponent : stage.component with
    | none => exact ⟨_, _, _, _, apply_foreign htype hcomponent, .foreign htype hcomponent⟩
    | some component =>
      obtain ⟨u, hnote⟩ : ∃ u,
          State.onJournal (Journal.note (.assigned component.name m.name)) s = ((), u) := ⟨_, rfl⟩
      cases hfault : checkFault c.type.shortName m.fault u with
      | mk checked v =>
        cases checked with
        | error stop =>
          exact ⟨_, _, _, _, apply_faulty htype hcomponent hnote hfault,
            .faulty htype hcomponent hnote hfault⟩
        | ok _ =>
          obtain ⟨r, component', left, t, hfill, hfills⟩ := fill_sees given
            (c.type.shortName ++ "." ++ m.name) (entriesOf m.points values) (m.name ++ ".") m.takes 0
            component v
          rw [← Arguments.ofPoints_eq] at hfill
          exact ⟨_, _, _, _, apply_filled htype hcomponent hnote hfault hfill,
            .filled htype hcomponent hnote hfault hfills⟩

theorem applying_ends {m : Member × List Argument} {stage stage' : Stage} {s t : State}
    {r : Except Stop Unit} (h : applying given c m (stage, s) = (r, stage', t)) :
    Applies given c m.1 m.2 stage s r stage' t := by
  obtain ⟨r', stage'', left, t', hrun, happlies⟩ := apply_ends given c m.1 m.2 stage s
  simp only [applying, hrun] at h
  cases h
  exact happlies

end

/-! ## Constructions -/

section

variable (given : Provider) (c : Construction) (node : Option (Node Instance)) (path : String)

/-- How a construction ends whose steps see the arguments of their points by position. -/
inductive ByPosition (s : State) : (Except Stop Instance × Option (Node Instance)) × State → Prop
  /-- It fails before its first step. -/
  | unprepared {stop : Stop} {node' : Option (Node Instance)} {t : State}
      (hprepare : prepare given c node path s = ((.error stop, node'), t)) :
      ByPosition s ((.error stop, node'), t)
  /-- Each point was resolved to one argument, in order of declaration, and each take of a step sees
  one argument of the points of that step, in the same order. -/
  | built {t u v : State} {substitutor : Option Substitutor} {f : Focus} {p : Prepared}
      {log : List LogRecord} {r : Except Stop Instance}
      (hprepare : prepare given c node path s = ((.ok p, f.node), u))
      (hpoints : InOrder (resolving given) c.points
        ({ node, context := { path, substitutor } }, t) p.arguments (f, u))
      (hfits : p.Fits c)
      (hbuilt : Built given c p { u with journal := { u.journal with log } } (r, v))
      (hcreate : ∀ s r left t,
        create given c (.ofPoints c.type.shortName c.parameters p.parameters) s = ((r, left), t) →
          Creates given c p.parameters s r t)
      (hmembers : ∀ m ∈ c.members.zip p.members, ∀ stage s r stage' t,
        applying given c m (stage, s) = (r, stage', t) → Applies given c m.1 m.2 stage s r stage' t) :
      ByPosition s ((r, f.node), v)

end

theorem construct_byPosition (depth : Nat) (c : Construction) (node : Option (Node Instance))
    (path : String) (s : State) : ByPosition (Provider.of (callWithin depth)) c node path s
      (construct (Provider.of (callWithin depth)) c node path s) := by
  have hprepare := prepare_staged (Provider.of (callWithin depth)) c node path s
    fun stop t h => substitutor_stops h
  cases hprepared : prepare (Provider.of (callWithin depth)) c node path s with
  | mk ended u =>
    obtain ⟨r, node'⟩ := ended
    rw [hprepared] at hprepare
    cases r with
    | error stop =>
      rw [construct_unprepared hprepared]
      exact .unprepared hprepared
    | ok p =>
      obtain ⟨t, substitutor, f, -, -, hpoints, -, hfits, rfl⟩ := hprepare
      obtain ⟨log, r, v, -, hbuild, hrun⟩ := construct_prepared hprepared
      have hbuilt := build_ends (Provider.of (callWithin depth)) c p
        { u with journal := { u.journal with log } }
      rw [hbuild] at hbuilt
      rw [hrun]
      exact .built hprepared hpoints hfits hbuilt (fun _ _ _ _ => create_ends _ c)
        fun _ _ _ _ _ _ _ => applying_ends _ c

/-- **Arguments are consumed by position.**  Whatever arguments a queue has, whatever takes are made
from it, in whatever states, and however they end: each sees the argument whose number is that of the
takes before it that consume one, and the queue loses one argument for each of these.  So each take of
a step of a construction sees the argument of the point with that number. -/
theorem Arguments.by_position :
    (∀ (given : Provider) (owner : String) (entries : List ArgumentEntry)
      (calls : List (Take × State)), ∃ ended,
      takeEach given calls (pushed owner entries) =
        (ended, pushed owner (entries.drop (Take.consumed calls))) ∧
      ended.length = calls.length ∧
      ∀ (i : Nat) take s, calls[i]? = some (take, s) → ∃ r t, ended[i]? = some (r, t) ∧
        Sees given owner entries (Take.consumed (calls.take i)) s take r t) ∧
    ∀ (depth : Nat) (c : Construction) (node : Option (Node Instance)) (path : String) (s : State),
      ByPosition (Provider.of (callWithin depth)) c node path s
        (construct (Provider.of (callWithin depth)) c node path s) := by
  refine ⟨fun given owner entries calls => ?_, construct_byPosition⟩
  obtain ⟨ended, hrun, hlength, hsees⟩ := takeEach_sees given owner entries calls 0
  simp only [List.drop_zero, Nat.zero_add] at hrun hsees
  simp only [pushed_eq]
  exact ⟨ended, hrun, hlength, hsees⟩

end ComponentAssembly

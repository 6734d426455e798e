import ComponentAssembly.Proofs.Findings
import ComponentAssembly.Visit

/-!
# How visits end

A visit takes what a point asks for out of a node.  It finds no deferred argument, and no cycle makes
it fail (`Visit.visit_ends`).  It notes no event, names no component, and reports warnings at most
(`Visit.quiet_visit`).
-/

namespace ComponentAssembly

/-- The errors of a step that asks for nothing: any but a cycle. -/
def AssemblyError.IsPlain (cause : AssemblyError) : Prop :=
  ∀ chain, cause ≠ .circularDependency chain

/-- Lookups of some dependencies. -/
def Lookup.Among (points : InjectionPoint → Prop) : Lookup → Prop
  | .dependency p => points p
  | .resolved .. => False
  | .numbered .. => False

/-- Arguments that can lead to some dependencies only. -/
def Argument.Among (points : InjectionPoint → Prop) : Argument → Prop
  | .deferred lookup => lookup.Among points
  | .object _ => True
  | .scalar .. => True
  | .objects _ => True
  | .absent => True

/-- Every result of a step on the journal is of a kind. -/
def Yields {α : Type} (P : α → Prop) (m : StateM Journal α) : Prop :=
  ∀ j, P (m j).1

theorem Yields.pure {α : Type} {P : α → Prop} {a : α} (h : P a) : Yields P (Pure.pure a) :=
  fun _ => h

theorem Yields.bind {α β : Type} {P : α → Prop} {Q : β → Prop} {m : StateM Journal α}
    {f : α → StateM Journal β} (h : Yields P m) (hf : ∀ a, P a → Yields Q (f a)) :
    Yields Q (m >>= f) :=
  fun _ => hf _ (h _) _

/-- A first step of which nothing is known. -/
theorem Yields.after {α β : Type} {Q : β → Prop} {m : StateM Journal α} {f : α → StateM Journal β}
    (hf : ∀ a, Yields Q (f a)) : Yields Q (m >>= f) :=
  fun _ => hf _ _

/-- How visits end: in an argument that is not deferred, or by an error that is not a cycle. -/
def VisitEnds (points : InjectionPoint → Prop) : Except AssemblyError Argument → Prop
  | .ok argument => argument.Among points
  | .error cause => cause.IsPlain

namespace Visit

variable {points : InjectionPoint → Prop}

theorem defaultArgument_among (r : Reader) (p : InjectionPoint) (c : VisitContext) :
    Yields (fun x => x.1.Among points) (r.defaultArgument p c) := by
  unfold Reader.defaultArgument
  split
  · exact .pure trivial
  · refine .after fun _ => .after fun result => ?_
    cases result with
    | ok value => exact .pure trivial
    | error reason => exact .after fun _ => .pure trivial

theorem textArgument_among (r : Reader) (p : InjectionPoint) (raw : Option String)
    (c : VisitContext) : Yields (fun x => x.1.Among points) (r.textArgument p raw c) := by
  unfold Reader.textArgument
  split
  · exact defaultArgument_among r p c
  · refine .after fun _ => .after fun result => ?_
    cases result with
    | ok value => exact .pure trivial
    | error reason => exact .after fun _ => defaultArgument_among r p c

theorem total_ends {m : StateM Journal (Argument × Visit)}
    (h : Yields (fun r => r.1.Among points) m) : Yields (fun r => VisitEnds points r.1) (total m) :=
  .bind h fun _ hr => .pure hr

theorem adapted_plain (p : InjectionPoint) (child : Node Instance) (object : Instance) :
    Yields (fun r => ∀ cause, r = .error cause → cause.IsPlain) (adapted p child object) := by
  have hok : ∀ i : Instance, ∀ cause, (.ok i : Except AssemblyError Instance) = .error cause →
      cause.IsPlain := by
    intro i cause hcause
    cases hcause
  have hmismatch : ∀ path expected cause,
      (.error (.typeMismatch path expected) : Except AssemblyError Instance) = .error cause →
        cause.IsPlain := by
    intro path expected cause hcause chain
    cases hcause
    simp
  unfold adapted
  split
  · refine .after fun r => ?_
    cases r with
    | some i => exact .pure (hok i)
    | none => exact .pure (hmismatch _ _)
  · exact .pure (hmismatch _ _)

/-! ## Children one after the other -/

def Selection.cons (object : Instance) (label : String) (s : Selection) : Selection :=
  { objects := object :: s.objects, labels := label :: s.labels }

def Selection.append (s t : Selection) : Selection :=
  { objects := s.objects ++ t.objects, labels := s.labels ++ t.labels }

@[simp]
theorem Selection.push_append (s t : Selection) (object : Instance) (label : String) :
    (s.push object label).append t = s.append (t.cons object label) := by
  simp [push, append, cons]

/-- Takes the wanted children that have an object, and leaves the others in their order: what the loop
does, without its indices.  The selection is made up from the end. -/
def select (p : InjectionPoint) (c : VisitContext) :
    List (Node Instance) → StateM Journal (Except AssemblyError Selection × List (Node Instance))
  | [] => return (.ok {}, [])
  | child :: rest => do
    if !isWanted p child then
      let (selection, left) ← select p c rest
      return (selection, child :: left)
    else
      match child.object with
      | none =>
        c.report .skippedElement ("跳过没有解析结果的子元素 " ++ child.label)
        let (selection, left) ← select p c rest
        return (selection, child :: left)
      | some object =>
        match ← adapted p child object with
        | .error cause => return (.error cause, child :: rest)
        | .ok view =>
          let (selection, left) ← select p c rest
          return (selection.map (·.cons view child.label), left)

/-- The loop, at the index of a child, goes on with the children from there; those before stay. -/
theorem collect_eq_select (p : InjectionPoint) (c : VisitContext) (passed ahead : List (Node Instance))
    (s : Selection) : collect p c passed.length (passed ++ ahead) s = do
      let (selection, left) ← select p c ahead
      return (selection.map s.append, passed ++ left) := by
  induction ahead generalizing passed s with
  | nil =>
    rw [collect, select]
    simp [Except.map, Selection.append]
  | cons child rest ih =>
    have hlt : passed.length < (passed ++ child :: rest).length := by simp
    have hchild : (passed ++ child :: rest)[passed.length] = child := by simp
    have hnext : collect p c (passed.length + 1) (passed ++ child :: rest) s = do
        let (selection, left) ← select p c rest
        return (selection.map s.append, passed ++ child :: left) := by
      have hih := ih (passed ++ [child]) s
      simpa only [List.length_append, List.length_singleton, List.append_assoc,
        List.singleton_append] using hih
    -- taking the child leaves the index where it is, at the next one
    have herase : (passed ++ child :: rest).eraseIdx passed.length = passed ++ rest := by
      rw [List.eraseIdx_append_of_length_le (Nat.le_refl _), Nat.sub_self, List.eraseIdx_cons_zero]
    rw [collect, dif_pos hlt, hchild, select]
    dsimp only
    split
    · rw [hnext]
      rfl
    · cases child.object with
      | none =>
        dsimp only
        rw [hnext]
        rfl
      | some object =>
        dsimp only
        rw [herase]
        simp only [bind_assoc]
        refine bind_congr fun result => ?_
        cases result with
        | error cause => rfl
        | ok view =>
          dsimp only
          rw [ih passed (s.push view child.label), bind_assoc]
          refine bind_congr fun r => ?_
          obtain ⟨selection, left⟩ := r
          cases selection with
          | error cause => rfl
          | ok others =>
            show pure (Except.ok ((s.push view child.label).append others), passed ++ left) = _
            rw [Selection.push_append]
            rfl

/-- The loop goes through all children. -/
theorem collect_eq (p : InjectionPoint) (c : VisitContext) (children : List (Node Instance)) :
    collect p c 0 children {} = select p c children := by
  have hselect := collect_eq_select p c [] children {}
  refine hselect.trans ((bind_congr fun r => ?_).trans (bind_pure _))
  obtain ⟨selection, left⟩ := r
  cases selection <;> rfl

theorem select_plain (p : InjectionPoint) (c : VisitContext) (children : List (Node Instance)) :
    Yields (fun r => ∀ cause, r.1 = .error cause → cause.IsPlain) (select p c children) := by
  induction children with
  | nil => exact .pure fun cause hcause => by cases hcause
  | cons child rest ih =>
    unfold select
    split
    · exact .bind ih fun r hr => .pure hr
    · split
      · exact .after fun _ => .bind ih fun r hr => .pure hr
      · refine .bind (adapted_plain p child _) fun r hr => ?_
        cases r with
        | error cause => exact .pure fun _ hcause => by cases hcause; exact hr cause rfl
        | ok view =>
          refine .bind ih fun r hr => .pure fun cause hcause => ?_
          cases hsel : r.1 with
          | error cause' =>
            rw [hsel] at hcause
            cases hcause
            exact hr cause hsel
          | ok selection =>
            rw [hsel] at hcause
            cases hcause

theorem visitElements_ends (p : InjectionPoint) (v : Visit) :
    Yields (fun r => VisitEnds points r.1) (visitElements p v) := by
  unfold visitElements
  rw [collect_eq]
  refine .bind (select_plain p v.context v.node.children) fun r hr => ?_
  dsimp only
  split
  · next cause hcause => exact .pure (hr cause hcause)
  · exact .pure trivial

theorem visitElement_ends (p : InjectionPoint) (v : Visit) :
    Yields (fun r => VisitEnds points r.1) (visitElement p v) := by
  unfold visitElement
  split
  · exact .pure trivial
  · dsimp only
    split
    · exact .pure trivial
    · refine .bind (adapted_plain p _ _) fun r hr => ?_
      cases r with
      | error cause => exact .pure (hr cause rfl)
      | ok view => exact .pure trivial

/-- Dependencies are not visited, and all other points are. -/
@[simp]
theorem visit?_eq_none_iff {p : InjectionPoint} : visit? p = none ↔ p.source = .dependency := by
  cases hsource : p.source <;> simp [visit?, visitWith?, hsource]

theorem visit_ends {p : InjectionPoint}
    {visit : Visit → StateM Journal (Except AssemblyError Argument × Visit)}
    (hvisit : visit? p = some visit) (v : Visit) :
    Yields (fun r => VisitEnds points r.1) (visit v) := by
  unfold visit? visitWith? at hvisit
  split at hvisit
  · cases hvisit
  · cases hvisit
    exact total_ends (.bind (textArgument_among _ p _ _) fun _ hr => .pure hr)
  · cases hvisit
    refine total_ends ?_
    unfold Reader.visitValue
    dsimp only
    split
    · exact .after fun _ => .bind (textArgument_among _ p _ _) fun _ hr => .pure hr
    · exact .bind (textArgument_among _ p _ _) fun _ hr => .pure hr
  · cases hvisit
    split
    · exact visitElements_ends p v
    · exact visitElement_ends p v
  · cases hvisit
    exact total_ends (.after fun _ => .after fun _ => .pure trivial)

end Visit

/-! ## Steps that do not look at the log -/

/-- A step on the journal that goes the same way whatever is in the log. -/
def Journal.Blind {α : Type} (step : StateM Journal α) : Prop :=
  ∀ (j : Journal) (log : List LogRecord), ∃ log',
    step { j with log } = ((step j).1, { (step j).2 with log := log' })

namespace Journal.Blind

variable {α β : Type}

theorem pure (a : α) : Blind (Pure.pure a) :=
  fun _ log => ⟨log, rfl⟩

theorem bind {m : StateM Journal α} {f : α → StateM Journal β} (h : Blind m)
    (hf : ∀ a, Blind (f a)) : Blind (m >>= f) := by
  intro j log
  obtain ⟨log₁, hfirst⟩ := h j log
  obtain ⟨log₂, hrest⟩ := hf (m j).1 (m j).2 log₁
  refine ⟨log₂, ?_⟩
  show f (m { j with log }).1 (m { j with log }).2 = _
  rw [hfirst]
  exact hrest

theorem write (record : LogRecord) : Blind (Journal.write record) :=
  fun _ log => ⟨log ++ [record], rfl⟩

theorem note (event : Event) : Blind (Journal.note event) :=
  fun _ log => ⟨log, rfl⟩

theorem allocate (value : Value) : Blind (Journal.allocate value) :=
  fun _ log => ⟨log, rfl⟩

theorem newComponent (type : TypePath) : Blind (Journal.newComponent type) :=
  fun _ log => ⟨log, rfl⟩

theorem report (kind : DiagnosticKind) (path message : String) :
    Blind (Journal.report kind path message) := by
  refine bind (write _) fun _ j log => ⟨log, ?_⟩
  show (_, if j.collecting then _ else _) = (_, { (if j.collecting then _ else _ : Journal) with log })
  split <;> rfl

end Journal.Blind

/-! ## Quiet steps on the journal -/

/-- A step on the journal that notes no event, names no component, reports warnings at most, and does
not look at the log. -/
structure Journal.Quiet {α : Type} (step : StateM Journal α) : Prop where
  still : ∀ j, (step j).2.events = j.events ∧ (step j).2.serials = j.serials ∧ j.Warns (step j).2
  blind : Journal.Blind step

namespace Journal.Quiet

variable {α β : Type}

theorem pure (a : α) : Quiet (Pure.pure a) :=
  ⟨fun j => ⟨rfl, rfl, .refl j⟩, .pure a⟩

theorem bind {m : StateM Journal α} {f : α → StateM Journal β} (h : Quiet m)
    (hf : ∀ a, Quiet (f a)) : Quiet (m >>= f) := by
  refine ⟨fun j => ?_, h.blind.bind fun a => (hf a).blind⟩
  obtain ⟨hevents, hserials, hwarns⟩ := h.still j
  obtain ⟨hevents', hserials', hwarns'⟩ := (hf (m j).1).still (m j).2
  exact ⟨hevents'.trans hevents, hserials'.trans hserials, hwarns.trans hwarns'⟩

theorem debug (message : String) (fields : List (String × String)) :
    Quiet (Journal.debug message fields) :=
  ⟨fun j => ⟨rfl, rfl, [], j.tells_write (LogRecord.diagnostic?_debug message fields),
    fun _ hd => by cases hd⟩, .write _⟩

theorem allocate (value : Value) : Quiet (Journal.allocate value) :=
  ⟨fun j => ⟨rfl, rfl, [], (Journal.Tells.refl j).of_same rfl rfl rfl, fun _ hd => by cases hd⟩,
    .allocate value⟩

theorem report {kind : DiagnosticKind} (h : kind ≠ .validationFailure) (path message : String) :
    Quiet (Journal.report kind path message) :=
  ⟨fun j => ⟨(j.report_apart kind path message).1, (j.report_apart kind path message).2,
    j.warns_report h path message⟩, .report kind path message⟩

theorem adapt (c : PluginClass) (object : Instance) (target : TypePath) :
    Quiet (c.adapt object target) := by
  unfold PluginClass.adapt
  split
  · exact pure _
  · split
    · exact pure _
    · split
      · split
        · exact bind (allocate _) fun _ => pure _
        · exact pure _
      · exact pure _

end Journal.Quiet

open Journal.Quiet

/-- A reader that does so as well. -/
structure Reader.Quiet (r : Reader) : Prop where
  substitute : ∀ raw, Journal.Quiet (r.substitute raw)
  convert : ∀ text, Journal.Quiet (r.convert text)

namespace Reader.Quiet

variable {r : Reader}

theorem defaultArgument (h : r.Quiet) (p : InjectionPoint) (c : VisitContext) :
    Journal.Quiet (r.defaultArgument p c) := by
  unfold Reader.defaultArgument
  split
  · exact pure _
  · refine bind (h.substitute _) fun _ => bind (h.convert _) fun result => ?_
    cases result with
    | ok value => exact pure _
    | error reason => exact bind (report (by decide) _ _) fun _ => pure _

theorem textArgument (h : r.Quiet) (p : InjectionPoint) (raw : Option String) (c : VisitContext) :
    Journal.Quiet (r.textArgument p raw c) := by
  unfold Reader.textArgument
  split
  · exact h.defaultArgument p c
  · refine bind (h.substitute _) fun _ => bind (h.convert _) fun result => ?_
    cases result with
    | ok value => exact pure _
    | error reason => exact bind (report (by decide) _ _) fun _ => h.defaultArgument p c

theorem visitValue (h : r.Quiet) (p : InjectionPoint) (v : Visit) :
    Journal.Quiet (r.visitValue p v) := by
  unfold Reader.visitValue
  dsimp only
  split
  · exact bind (report (by decide) _ _) fun _ => bind (h.textArgument _ _ _) fun _ => pure _
  · exact bind (h.textArgument _ _ _) fun _ => pure _

end Reader.Quiet

namespace Visit

theorem quiet_reader (p : InjectionPoint) (c : VisitContext) : (reader p c).Quiet where
  substitute _ := pure _
  convert text := by
    unfold reader
    dsimp only
    split
    · exact bind (allocate _) fun _ => pure _
    · exact pure _

theorem quiet_adapted (p : InjectionPoint) (child : Node Instance) (object : Instance) :
    Journal.Quiet (adapted p child object) := by
  unfold adapted
  split
  · refine bind (adapt _ _ _) fun r => ?_
    cases r <;> exact pure _
  · exact pure _

theorem quiet_select (p : InjectionPoint) (c : VisitContext) (children : List (Node Instance)) :
    Journal.Quiet (select p c children) := by
  induction children with
  | nil => exact pure _
  | cons child rest ih =>
    unfold select
    split
    · exact bind ih fun _ => pure _
    · split
      · exact bind (report (by decide) _ _) fun _ => bind ih fun _ => pure _
      · refine bind (quiet_adapted _ _ _) fun r => ?_
        cases r with
        | error cause => exact pure _
        | ok view => exact bind ih fun _ => pure _

theorem quiet_visitElements (p : InjectionPoint) (v : Visit) :
    Journal.Quiet (visitElements p v) := by
  unfold visitElements
  rw [collect_eq]
  refine bind (quiet_select _ _ _) fun r => ?_
  dsimp only
  split <;> exact pure _

theorem quiet_visitElement (p : InjectionPoint) (v : Visit) :
    Journal.Quiet (visitElement p v) := by
  unfold visitElement
  split
  · exact pure _
  · dsimp only
    split
    · exact pure _
    · refine bind (quiet_adapted _ _ _) fun r => ?_
      cases r <;> exact pure _

theorem quiet_visit {p : InjectionPoint}
    {visit : Visit → StateM Journal (Except AssemblyError Argument × Visit)}
    (hvisit : visit? p = some visit) (v : Visit) : Journal.Quiet (visit v) := by
  unfold visit? visitWith? at hvisit
  split at hvisit
  · cases hvisit
  · cases hvisit
    exact bind (bind ((quiet_reader p _).textArgument _ _ _) fun _ => pure _) fun _ => pure _
  · cases hvisit
    exact bind ((quiet_reader p _).visitValue p v) fun _ => pure _
  · cases hvisit
    split
    · exact quiet_visitElements p v
    · exact quiet_visitElement p v
  · cases hvisit
    exact bind (bind (debug _ _) fun _ => bind (allocate _) fun _ => pure _) fun _ => pure _

end Visit

end ComponentAssembly

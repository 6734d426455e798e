import ComponentAssembly.Proofs.Staging

/-!
# Constructions without a node

Without a node each point takes from an empty node of its own; with one, all points take from that node,
one after the other, and what is left goes on to the next.  From a node that has nothing to give, nothing
is taken, so both ways are the same (`Assemble.construct_without_node`):

    construct c none path           ends as       construct c (some .empty) path
    construct c none path           ends as       construct c (some n) path

the second for a blank node of any name or plugin, if no point asks for the node itself.  What a step
does is stated for all such nodes at once, and for none: one result, one state and one account of what
was found, whatever the node, which stays as it is.
-/

namespace ComponentAssembly

/-- A node that has nothing to give but itself. -/
structure Node.IsBlank (n : Node Instance) : Prop where
  attributes : n.attributes = []
  text : Visit.elementText n = none
  children : n.children = []

theorem Node.empty_isBlank : Node.IsBlank .empty :=
  ⟨rfl, rfl, rfl⟩

/-- Some points find nothing: there is no node, or a blank one, and if they ask for the node itself, then
it is as good as none. -/
def FindNothing (points : List InjectionPoint) (node : Option (Node Instance)) : Prop :=
  ∀ n ∈ node, n.IsBlank ∧ ((∀ p ∈ points, p.source ≠ .node) ∨ n = .empty)

namespace FindNothing

variable {points others : List InjectionPoint} {node : Option (Node Instance)} {n : Node Instance}

theorem none : FindNothing points none :=
  fun _ h => nomatch h

theorem some (hn : n.IsBlank) (h : (∀ p ∈ points, p.source ≠ .node) ∨ n = .empty) :
    FindNothing points (some n) := by
  rintro _ ⟨⟩
  exact ⟨hn, h⟩

theorem getD (h : FindNothing points node) : FindNothing points (Option.some (node.getD .empty)) := by
  cases node with
  | none => exact some Node.empty_isBlank (.inr rfl)
  | some n => exact h

theorem among (h : FindNothing points node) (hsub : ∀ p ∈ others, p ∈ points) :
    FindNothing others node :=
  fun n hn => ⟨(h n hn).1, (h n hn).2.imp_left fun hpoints p hp => hpoints p (hsub p hp)⟩

end FindNothing

/-! ## Visits -/

namespace Visit

variable {n : Node Instance} {p : InjectionPoint} {c : VisitContext}

theorem visitAttribute_blank (hn : n.IsBlank) (r : Reader) :
    r.visitAttribute p { node := n, context := c } = do
      let (argument, context) ← r.defaultArgument p c
      return (argument, { node := n, context }) := by
  obtain ⟨name, plugin, attributes, text, children, object⟩ := n
  obtain ⟨rfl, -, -⟩ := hn
  have hnone : takeAttribute p [] = (none, []) := by
    have hname : attributeName p [] = none :=
      List.find?_eq_none.mpr fun name _ => by simp [Attributes.taken]
    unfold takeAttribute
    rw [hname]
  unfold Reader.visitAttribute
  rw [hnone]
  rfl

theorem visitValue_blank (hn : n.IsBlank) (r : Reader) :
    r.visitValue p { node := n, context := c } = do
      let (argument, context) ← r.defaultArgument p c
      return (argument, { node := n, context }) := by
  obtain ⟨name, plugin, attributes, text, children, object⟩ := n
  obtain ⟨rfl, htext, -⟩ := hn
  unfold Reader.visitValue
  rw [htext]
  rfl

theorem visitElements_blank (hn : n.IsBlank) :
    visitElements p { node := n, context := c } =
      pure (.ok (.objects []), { node := n, context := c.log p.name "\x7b\x7d" }) := by
  obtain ⟨name, plugin, attributes, text, children, object⟩ := n
  obtain ⟨-, -, rfl⟩ := hn
  unfold visitElements
  rw [collect]
  rfl

theorem visitElement_blank (hn : n.IsBlank) :
    visitElement p { node := n, context := c } =
      pure (.ok .absent, { node := n, context := c.log p.name "null" }) := by
  unfold visitElement
  rw [hn.children]
  rfl

/-- A visit of a node in which a point finds nothing leaves the node as it is, and goes the same way for
all such nodes. -/
theorem visit_blank {visit : Visit → StateM Journal (Except AssemblyError Argument × Visit)}
    (hvisit : visit? p = some visit) (c : VisitContext) (j : Journal) :
    ∃ result context k, ∀ n : Node Instance, FindNothing [p] (some n) →
      visit { node := n, context := c } j = ((result, { node := n, context }), k) := by
  have hblank : ∀ {n : Node Instance}, FindNothing [p] (some n) → n.IsBlank := fun h => (h _ rfl).1
  -- the argument of a point that takes text, where there is none
  let default := (reader p c).defaultArgument p c j
  unfold visit? visitWith? at hvisit
  split at hvisit
  case h_1 => cases hvisit
  case h_2 =>
    cases hvisit
    refine ⟨.ok default.1.1, default.1.2, default.2, fun n hn => ?_⟩
    dsimp only
    rw [visitAttribute_blank (hblank hn)]
    rfl
  case h_3 =>
    cases hvisit
    refine ⟨.ok default.1.1, default.1.2, default.2, fun n hn => ?_⟩
    dsimp only
    rw [visitValue_blank (hblank hn)]
    rfl
  case h_4 =>
    cases hvisit
    split
    · exact ⟨_, _, _, fun n hn => congrFun (visitElements_blank (hblank hn)) j⟩
    · exact ⟨_, _, _, fun n hn => congrFun (visitElement_blank (hblank hn)) j⟩
  case h_5 hsource =>
    cases hvisit
    let found := total (visitNode p { node := .empty, context := c }) j
    refine ⟨found.1.1, found.1.2.context, found.2, fun n hn => ?_⟩
    -- a point that asks for the node finds nothing in one node only
    have hempty : n = .empty :=
      (hn n rfl).2.resolve_left fun hnot => hnot p List.mem_cons_self hsource
    cases hempty
    rfl

end Visit

/-! ## Steps that take from a node -/

/-- A step goes the same way for all nodes in which some points find nothing, and without one, and
leaves the node as it is. -/
def Steady {α : Type} (points : List InjectionPoint) (step : Focus → StateM State (α × Focus)) : Prop :=
  ∀ c s, ∃ a context t, ∀ node, FindNothing points node →
    step { node, context := c } s = ((a, { node, context }), t)

namespace Steady

variable {α β : Type} {points others : List InjectionPoint}

theorem pure (a : α) : Steady points fun f => Pure.pure (a, f) :=
  fun c s => ⟨a, c, s, fun _ _ => rfl⟩

theorem bind {m : Focus → StateM State (α × Focus)} {k : α × Focus → StateM State (β × Focus)}
    (hm : Steady points m) (hk : ∀ a, Steady points fun f => k (a, f)) :
    Steady points fun f => m f >>= k := by
  intro c s
  obtain ⟨a, context, t, hfirst⟩ := hm c s
  obtain ⟨b, context', u, hrest⟩ := hk a context t
  exact ⟨b, context', u, fun node hnode =>
    (Assemble.bind_run (hfirst node hnode)).trans (hrest node hnode)⟩

theorem mono {step : Focus → StateM State (α × Focus)} (h : Steady others step)
    (hsub : ∀ p ∈ others, p ∈ points) : Steady points step := by
  intro c s
  obtain ⟨a, context, t, hstep⟩ := h c s
  exact ⟨a, context, t, fun node hnode => hstep node (hnode.among hsub)⟩

end Steady

namespace Assemble

variable (given : Provider)

theorem resolvePoint_steady (p : InjectionPoint) : Steady [p] (resolvePoint given p) := by
  intro c s
  cases hvisit : Visit.visit? p with
  | none =>
    have hrun := fun node => resolvePoint_apart given { node, context := c } s hvisit
    cases hdependency : resolveDependency given p c s with
    | mk result t =>
      simp only [hdependency] at hrun
      cases result with
      | error stop => exact ⟨.error stop, c, t, fun node _ => hrun node⟩
      | ok found => exact ⟨.ok found.1, found.2, t, fun node _ => hrun node⟩
  | some visit =>
    obtain ⟨result, context, k, hsame⟩ := Visit.visit_blank hvisit c s.journal
    refine ⟨result.mapError .error, context, { s with journal := k }, fun node hnode => ?_⟩
    refine (resolvePoint_visited given { node, context := c } s hvisit
      (hsame (node.getD .empty) hnode.getD)).trans ?_
    cases node <;> rfl

theorem resolvePoints_steady (ps : List InjectionPoint) : Steady ps (resolvePoints given ps) := by
  induction ps with
  | nil => exact .pure _
  | cons p rest ih =>
    have hfirst : Steady (p :: rest) (resolvePoint given p) :=
      (resolvePoint_steady given p).mono (by simp)
    have hrest : Steady (p :: rest) (resolvePoints given rest) :=
      ih.mono fun _ => List.mem_cons_of_mem p
    refine hfirst.bind fun result => ?_
    cases result with
    | error stop => exact .pure _
    | ok argument => exact hrest.bind fun arguments => .pure _

theorem resolveMembers_steady (ms : List Member) :
    Steady (ms.flatMap (·.points)) (resolveMembers given ms) := by
  induction ms with
  | nil => exact .pure _
  | cons m rest ih =>
    rw [List.flatMap_cons]
    have hfirst : Steady (m.points ++ rest.flatMap (·.points)) (resolvePoints given m.points) :=
      (resolvePoints_steady given m.points).mono fun _ => List.mem_append_left _
    have hrest : Steady (m.points ++ rest.flatMap (·.points)) (resolveMembers given rest) :=
      ih.mono fun _ => List.mem_append_right _
    refine hfirst.bind fun result => ?_
    cases result with
    | error stop => exact .pure _
    | ok arguments => exact hrest.bind fun members => .pure _

theorem resolveAll_steady (c : Construction) : Steady c.points (resolveAll given c) := by
  have hparameters : Steady c.points (resolvePoints given c.parameters) :=
    (resolvePoints_steady given c.parameters).mono fun _ => List.mem_append_left _
  have hmembers : Steady c.points (resolveMembers given c.members) :=
    (resolveMembers_steady given c.members).mono fun _ => List.mem_append_right _
  refine hparameters.bind fun result => ?_
  cases result with
  | error stop => exact .pure _
  | ok parameters =>
    refine hmembers.bind fun result => ?_
    cases result with
    | error stop => exact .pure _
    | ok members =>
      exact fun c s => ⟨.ok { parameters, members, account := c.account }, c, s, fun _ _ => rfl⟩

end Assemble

/-! ## Constructions -/

/-- A step goes the same way for all nodes in which some points find nothing, and without one, and gives
the node back as it is. -/
def Returns {α : Type} (points : List InjectionPoint)
    (step : Option (Node Instance) → StateM State (α × Option (Node Instance))) : Prop :=
  ∀ s, ∃ a t, ∀ node, FindNothing points node → step node s = ((a, node), t)

namespace Returns

variable {α β : Type} {points : List InjectionPoint}

theorem pure (a : α) : Returns points fun node => Pure.pure (a, node) :=
  fun s => ⟨a, s, fun _ _ => rfl⟩

/-- A first step that is not about the node. -/
theorem after (m : StateM State β) {k : β → Option (Node Instance) →
    StateM State (α × Option (Node Instance))} (h : ∀ b, Returns points (k b)) :
    Returns points fun node => m >>= fun b => k b node :=
  fun s => h (m s).1 (m s).2

theorem bind {m : Option (Node Instance) → StateM State (β × Option (Node Instance))}
    {k : β × Option (Node Instance) → StateM State (α × Option (Node Instance))}
    (hm : Returns points m) (hk : ∀ b, Returns points fun node => k (b, node)) :
    Returns points fun node => m node >>= k := by
  intro s
  obtain ⟨b, t, hfirst⟩ := hm s
  obtain ⟨a, u, hrest⟩ := hk b t
  exact ⟨a, u, fun node hnode => (Assemble.bind_run (hfirst node hnode)).trans (hrest node hnode)⟩

/-- A first step that takes from the node. -/
theorem taking {step : Focus → StateM State (β × Focus)}
    {k : β × Focus → StateM State (α × Option (Node Instance))} (hstep : Steady points step)
    (hk : ∀ b context, Returns points fun node => k (b, { node, context })) (c : VisitContext) :
    Returns points fun node => step { node, context := c } >>= k := by
  intro s
  obtain ⟨b, context, t, hfirst⟩ := hstep c s
  obtain ⟨a, u, hrest⟩ := hk b context t
  exact ⟨a, u, fun node hnode => (Assemble.bind_run (hfirst node hnode)).trans (hrest node hnode)⟩

end Returns

namespace Assemble

variable (given : Provider)

theorem prepare_returns (c : Construction) (path : String) :
    Returns c.points fun node => prepare given c node path := by
  refine .after get fun s => ?_
  cases c.classFailures s.property? path with
  | cons failure failures => exact .pure _
  | nil =>
    refine .after given.substitutor.run fun result => ?_
    cases result with
    | error stop => exact .pure _
    | ok substitutor =>
      refine .taking (resolveAll_steady given c) (fun result context => ?_) _
      cases result with
      | error stop => exact .pure _
      | ok prepared =>
        dsimp only
        cases argumentFailures c prepared path with
        | cons failure failures => exact .pure _
        | nil => exact .pure _

theorem construct_returns (c : Construction) (path : String) :
    Returns c.points fun node => construct given c node path := by
  refine (prepare_returns given c path).bind fun result => ?_
  cases result with
  | error stop => exact .pure _
  | ok prepared => exact .after _ fun _ => .after _ fun _ => .pure _

/-- **Without a node is with an empty one.**  A construction without a node and one that is given an
empty node have the same result, the same instance or the same failure, and lead to the same state, with
the same bindings, the same findings in the same order and the same objects made: whatever answers the
questions of its steps is asked the same ones.  The empty node is left as it was.  So it goes with any
node that has no attribute, no text and no child, whatever its name or plugin type, unless a point asks
for the node itself. -/
theorem construct_without_node (c : Construction) (path : String) (s : State) :
    ∃ result t, construct given c none path s = ((result, none), t) ∧
      construct given c (some .empty) path s = ((result, some .empty), t) ∧
      ∀ n : Node Instance, n.IsBlank → (∀ p ∈ c.points, p.source ≠ .node) →
        construct given c (some n) path s = ((result, some n), t) := by
  obtain ⟨result, t, hsame⟩ := construct_returns given c path s
  exact ⟨result, t, hsame none .none, hsame (some .empty) (.some Node.empty_isBlank (.inr rfl)),
    fun n hn hpoints => hsame (some n) (.some hn (.inl hpoints))⟩

/-- Retries with a default: three of them, injected or configured from an element with no attribute. -/
theorem retries_without_node :
    let p := { InjectionPoint.fromAttribute "retries" ⟨"u32"⟩ with default? := some "3" }
    let c : Construction :=
      { type := ⟨"app::Defaults"⟩, parameters := [p], takes := [p.defaultTake],
        stage := ⟨"app::Defaults"⟩ }
    let n : Node Instance := { name := "Defaults" }
    let given := Provider.of (callWithin 2)
    n.IsBlank ∧ (∀ p ∈ c.points, p.source ≠ .node) ∧
      ∃ component t, construct given c none "Defaults" {} = ((.ok component, none), t) ∧
        construct given c (some n) "Defaults" {} = ((.ok component, some n), t) := by
  intro p c n given
  have hblank : n.IsBlank := ⟨rfl, rfl, rfl⟩
  have hpoints : ∀ p ∈ c.points, p.source ≠ .node := by decide
  have hbuilt : (construct given c none "Defaults" {}).1.1.isOk = true := by decide +kernel
  obtain ⟨result, t, hnone, -, hsame⟩ := construct_without_node given c "Defaults" {}
  refine ⟨hblank, hpoints, ?_⟩
  rw [hnone] at hbuilt
  cases result with
  | error stop => cases hbuilt
  | ok component => exact ⟨component, t, hnone, hsame n hblank hpoints⟩

end Assemble

end ComponentAssembly

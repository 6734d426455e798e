import ComponentAssembly.Proofs.Dealing
import ComponentAssembly.Proofs.Elements
import ComponentAssembly.Proofs.Reading
import ComponentAssembly.Proofs.Staging
import ComponentAssembly.Proofs.Warnings

/-!
# What points take from a node

A visit leaves a receipt: the argument of its point, the attributes and children that were taken for
it, and what was reported (`Receipt`).  What is taken is what the point may take, and what does not
end up in the argument is reported (`Receipt.Proper`).

Points that are resolved one after the other deal the attributes and children of their node out among
them (`Takings.attributes`, `Takings.children`).
-/

namespace ComponentAssembly

open Assemble

/-! ## Receipts -/

/-- A node with some of its attributes and children taken. -/
def Node.Trimmed (n m : Node Instance) : Prop :=
  m = { n with attributes := m.attributes, children := m.children }

theorem Node.Trimmed.refl (n : Node Instance) : n.Trimmed n := by
  cases n
  rfl

theorem Node.Trimmed.trans {n m k : Node Instance} (h : n.Trimmed m) (h' : m.Trimmed k) :
    n.Trimmed k := by
  unfold Node.Trimmed at h h' ⊢
  rw [h', h]

theorem Node.Trimmed.with_object {n m : Node Instance} (h : n.Trimmed m) (object : Option Instance) :
    { m with object } =
      { n with attributes := m.attributes, children := m.children, object } := by
  cases n
  cases m
  cases h
  rfl

/-- A node with some of its attributes taken, and some of its children, each by an element point that
wants it. -/
structure Node.Pruned (points : List InjectionPoint) (n m : Node Instance) : Prop where
  trimmed : n.Trimmed m
  children : ∃ hands, Dealt n.children hands m.children ∧ ∀ hand ∈ hands, ∀ child ∈ hand,
    ∃ p ∈ points, p.source = .element ∧ Visit.isWanted p child

namespace Node.Pruned

variable {points : List InjectionPoint} {n m k : Node Instance}

theorem of_same (htrimmed : n.Trimmed m) (hchildren : m.children = n.children) : n.Pruned points m where
  trimmed := htrimmed
  children := ⟨[], hchildren ▸ .nothing _ (by simp), by simp⟩

theorem refl (n : Node Instance) : n.Pruned points n :=
  .of_same (.refl n) rfl

theorem trans (h : n.Pruned points m) (h' : m.Pruned points k) : n.Pruned points k := by
  obtain ⟨hands, hdealt, hwanted⟩ := h.children
  obtain ⟨hands', hdealt', hwanted'⟩ := h'.children
  refine ⟨h.trimmed.trans h'.trimmed, hands ++ hands', hdealt.append hdealt', fun hand hhand => ?_⟩
  rcases List.mem_append.mp hhand with hhand | hhand
  · exact hwanted hand hhand
  · exact hwanted' hand hhand

theorem mono {more : List InjectionPoint} (h : n.Pruned points m) (hsubset : points ⊆ more) :
    n.Pruned more m := by
  obtain ⟨hands, hdealt, hwanted⟩ := h.children
  refine ⟨h.trimmed, hands, hdealt, fun hand hhand child hchild => ?_⟩
  obtain ⟨p, hp, hsource⟩ := hwanted hand hhand child hchild
  exact ⟨p, hsubset hp, hsource⟩

end Node.Pruned

/-- The instances that an argument consists of, if it came from elements. -/
def Argument.elements : Argument → List Instance
  | .object i => [i]
  | .objects is => is
  | .scalar .. => []
  | .deferred _ => []
  | .absent => []

/-- An instance is an object, or the component that it is seen as another type. -/
def Instance.Sees (object i : Instance) : Prop :=
  i = object ∨ ∃ type component, object.value = .component component ∧ i.value = .view type component

/-- What a point got out of a node. -/
structure Receipt where
  point : InjectionPoint
  argument : Argument
  attributes : Attributes
  children : List (Node Instance)
  told : List Diagnostic

/-- The argument of a point is read from a raw text, or it is reported that it cannot be. -/
def InjectionPoint.Reads (p : InjectionPoint) (c : VisitContext) (raw : String) (argument : Argument)
    (told : List Diagnostic) : Prop :=
  (∃ scalar i, p.convert (c.substitute raw) = .ok scalar ∧ i.value = .scalar scalar ∧
    argument = .scalar (c.substitute raw) i) ∨
  ∃ reason, p.convert (c.substitute raw) = .error reason ∧
    { kind := .conversionFailure, path := c.path, message := p.name ++ ": " ++ reason } ∈ told

namespace Receipt

/-- What a point may take, and what becomes of it. -/
inductive Proper (c : VisitContext) (text : Option String) (r : Receipt) : Prop
  /-- Dependencies and nodes take nothing. -/
  | apart (hsource : r.point.source = .dependency ∨ r.point.source = .node)
      (hattributes : r.attributes = []) (hchildren : r.children = [])
  | fromAttribute (hsource : r.point.source = .attribute) (hchildren : r.children = [])
      (hone : r.attributes.length ≤ 1)
      (hname : ∀ a ∈ r.attributes, ∃ name ∈ r.point.name :: r.point.aliases,
        Text.sameIgnoringCase a.1 name)
      (hreads : ∀ a ∈ r.attributes, r.point.Reads c a.2 r.argument r.told)
  /-- The attribute of a value gives way to the text. -/
  | fromValue (hsource : r.point.source = .value) (hchildren : r.children = [])
      (hone : r.attributes.length ≤ 1)
      (hname : ∀ a ∈ r.attributes, Text.sameIgnoringCase a.1 r.point.name)
      (hreads : text = none → ∀ a ∈ r.attributes, r.point.Reads c a.2 r.argument r.told)
      (hconflict : text ≠ none → r.attributes ≠ [] → r.point.conflict c.path ∈ r.told)
  /-- The argument of an element consists of the objects of the children that were taken. -/
  | fromElement (hsource : r.point.source = .element) (hattributes : r.attributes = [])
      (hone : r.point.multiple = false → r.children.length ≤ 1)
      (hwanted : ∀ child ∈ r.children, Visit.isWanted r.point child)
      (hobjects : List.Forall₂ Instance.Sees (r.children.filterMap (·.object)) r.argument.elements)

/-- A visit leaves a receipt. -/
structure Takes (r : Receipt) (v v' : Visit) : Prop where
  attributes : Dealt v.node.attributes [r.attributes] v'.node.attributes
  children : Dealt v.node.children [r.children] v'.node.children
  trimmed : v.node.Trimmed v'.node
  path : v'.context.path = v.context.path
  substitutor : v'.context.substitutor = v.context.substitutor
  proper : r.Proper v.context (Visit.elementText v.node)

end Receipt

/-! ## Scalars -/

namespace Attributes.Finds

variable {attributes left : Attributes} {names : List String} {found : Option (String × String)}

/-- One attribute is taken at most. -/
theorem dealt (h : attributes.Finds names found left) : Dealt attributes [found.toList] left := by
  cases h with
  | nothing _ => exact .nothing _ (by simp)
  | first _ _ hattributes _ _ =>
    rw [hattributes]
    exact .middle _ _ _

theorem exists_name (h : attributes.Finds names found left) {a : String × String}
    (ha : found = some a) : ∃ name ∈ names, Text.sameIgnoringCase a.1 name := by
  cases h with
  | nothing _ => cases ha
  | first hnames _ _ _ hname =>
    cases ha
    exact ⟨_, by simp [hnames], hname⟩

end Attributes.Finds

/-- A candidate ends up in the argument, or in what is reported. -/
theorem Reader.Settles.reads {p : InjectionPoint} {c : VisitContext} {raw : String}
    {told : List Diagnostic} {argument : Argument} {j k : Journal}
    (h : (Visit.reader p c).Settles c.path (p.rawTexts (some raw)) told argument j k) :
    p.Reads c raw argument told := by
  cases h with
  | read hsubstitute hconvert =>
    cases hsubstitute
    rcases Visit.reader_converts hconvert with ⟨scalar, i, hscalar, hvalue, hi⟩ | ⟨_, _, herror⟩
    · cases hi
      exact .inl ⟨scalar, _, hscalar, hvalue, rfl⟩
    · cases herror
  | failed hsubstitute hconvert _ =>
    cases hsubstitute
    rcases Visit.reader_converts hconvert with ⟨_, _, _, _, hi⟩ | ⟨reason, hreason, herror⟩
    · cases hi
    · cases herror
      exact .inr ⟨_, hreason, List.mem_cons_self⟩

/-- A visit of a scalar point leaves a receipt. -/
theorem Reader.Visits.takes {p : InjectionPoint} {v : Visit} {j : Journal}
    {r : (Argument × Visit) × Journal} (h : (Visit.reader p v.context).Visits p v j r) :
    ∃ told, j.Tells r.2 told ∧ ∃ attributes, Receipt.Takes
      { point := p, argument := r.1.1, attributes, children := [], told } v r.1.2 := by
  cases h with
  | @found candidate left conflicts told argument context k hfinds hsettles hpath hsubstitutor =>
    refine ⟨conflicts ++ told,
      (j.tells_reported _).trans (hsettles.tells (Visit.silent_reader p v.context)), ?_⟩
    cases hfinds with
    | @fromAttribute found _ hsource hfound =>
      refine ⟨found.toList, hfound.dealt, .nothing _ (by simp), rfl, hpath, hsubstitutor, ?_⟩
      refine .fromAttribute hsource rfl (by cases found <;> simp) (fun a ha => ?_) fun a ha => ?_
      · exact hfound.exists_name (by simpa using ha)
      · obtain rfl : found = some a := by simpa using ha
        exact hsettles.reads
    | @fromValue found _ hsource htext hfound =>
      have hnone := Visit.elementText_eq_none_iff.mpr htext
      refine ⟨found.toList, hfound.dealt, .nothing _ (by simp), rfl, hpath, hsubstitutor, ?_⟩
      refine .fromValue hsource rfl (by cases found <;> simp) (fun a ha => ?_) (fun _ a ha => ?_)
        fun hne => absurd hnone hne
      · simpa using hfound.exists_name (a := a) (by simpa using ha)
      · obtain rfl : found = some a := by simpa using ha
        exact hsettles.reads
    | @fromText text found _ hsource htext hne hfound =>
      have hsome := Visit.elementText_eq_some_iff.mpr ⟨htext, hne⟩
      refine ⟨found.toList, hfound.dealt, .nothing _ (by simp), rfl, hpath, hsubstitutor, ?_⟩
      refine .fromValue hsource rfl (by cases found <;> simp) (fun a ha => ?_) (fun hnone => ?_)
        fun _ htaken => ?_
      · simpa using hfound.exists_name (a := a) (by simpa using ha)
      · rw [hnone] at hsome
        cases hsome
      · cases found with
        | none => exact absurd rfl htaken
        | some a => exact List.mem_cons_self

namespace Visit

variable {p : InjectionPoint}

/-! ## Elements -/

theorem shows_sees {child : Node Instance} {view : Instance} (h : p.Shows child view) :
    ∃ object, child.object = some object ∧ object.Sees view := by
  obtain ⟨plugin, object, -, hobject, hshows⟩ := h
  refine ⟨object, hobject, ?_⟩
  cases hshows with
  | same _ => exact .inl rfl
  | view _ _ hvalue _ hview => exact .inr ⟨_, _, hvalue, hview⟩

theorem forall₂_sees {children : List (Node Instance)} {views : List Instance}
    (h : List.Forall₂ p.Shows children views) :
    List.Forall₂ Instance.Sees (children.filterMap (·.object)) views := by
  induction h with
  | nil => exact .nil
  | cons hview _ ih =>
    obtain ⟨object, hobject, hsees⟩ := shows_sees hview
    rw [List.filterMap_cons_some hobject]
    exact .cons hsees ih

/-- A visit of elements that took some children leaves a receipt. -/
theorem Leaves.takes {v v' : Visit} {left children : List (Node Instance)} {argument : Argument}
    {told : List Diagnostic} (h : v.Leaves left v') (hsource : p.source = .element)
    (hchildren : Dealt v.node.children [children] left)
    (hone : p.multiple = false → children.length ≤ 1) (hwanted : ∀ child ∈ children, isWanted p child)
    (hobjects : List.Forall₂ Instance.Sees (children.filterMap (·.object)) argument.elements) :
    Receipt.Takes { point := p, argument, attributes := [], children, told } v v' where
  attributes := by
    rw [h.node]
    exact .nothing _ (by simp)
  children := by
    rw [h.node]
    exact hchildren
  trimmed := by
    rw [h.node]
    rfl
  path := h.path
  substitutor := h.substitutor
  proper := .fromElement hsource rfl hone hwanted hobjects

/-- Only children that are wanted are taken. -/
theorem parts_dealt {path : String} {children left : List (Node Instance)} {views : List Instance}
    {told : List Diagnostic} (h : p.Parts path children views left told) (rest : List (Node Instance)) :
    Dealt (children ++ rest) [children.filter (isTaken p)] (left ++ rest) ∧
      ∀ child ∈ children.filter (isTaken p), isWanted p child := by
  rw [h.left]
  exact ⟨.filter_append _ _ _, fun child hchild =>
    (Bool.and_eq_true_iff.mp (List.mem_filter.mp hchild).2).1⟩

theorem collects_dealt {path : String} {children left : List (Node Instance)} {told : List Diagnostic}
    {result : Except AssemblyError (List Instance)} (h : p.Collects path children result left told) :
    ∃ taken, Dealt children [taken] left ∧ ∀ child ∈ taken, isWanted p child := by
  cases h with
  | all hparts =>
    have hdealt := parts_dealt hparts []
    rw [List.append_nil, List.append_nil] at hdealt
    exact ⟨_, hdealt⟩
  | stopped hchildren hparts _ _ =>
    rw [hchildren]
    exact ⟨_, parts_dealt hparts _⟩

theorem picks_dealt {children left : List (Node Instance)} {result : Except AssemblyError Argument}
    (h : p.Picks children result left) :
    ∃ taken, Dealt children [taken] left ∧ ∀ child ∈ taken, isWanted p child := by
  cases h with
  | nothing _ => exact ⟨[], .nothing _ (by simp), by simp⟩
  | first hchildren _ hwants _ =>
    rw [hchildren]
    exact ⟨_, .middle _ _ _, by simpa using isWanted_iff.mpr hwants⟩

theorem visitElements_takes (hsource : p.source = .element) (hmultiple : p.multiple = true)
    (v : Visit) : Telling (fun r told => ∀ argument, r.1 = .ok argument → ∃ children,
      Receipt.Takes { point := p, argument, attributes := [], children, told } v r.2)
      (visitElements p v) := by
  refine (visitElements_collects p v).mono ?_
  rintro ⟨_, v'⟩ told ⟨result, left, rfl, hleaves, hcollects⟩ argument hargument
  cases hcollects with
  | stopped _ _ _ _ => cases hargument
  | all hparts =>
    cases hargument
    obtain ⟨hdealt, hwanted⟩ := parts_dealt hparts []
    rw [List.append_nil, List.append_nil] at hdealt
    refine ⟨v.node.children.filter (isTaken p), hleaves.takes hsource hdealt ?_ hwanted ?_⟩
    · intro hsingle
      rw [hmultiple] at hsingle
      cases hsingle
    · exact forall₂_sees hparts.views

theorem visitElement_takes (hsource : p.source = .element) (v : Visit) :
    Telling (fun r told => ∀ argument, r.1 = .ok argument → ∃ children,
      Receipt.Takes { point := p, argument, attributes := [], children, told } v r.2)
      (visitElement p v) := by
  refine (visitElement_picks p v).mono ?_
  rintro ⟨_, v'⟩ told ⟨-, left, hleaves, hpicks⟩ argument rfl
  cases hpicks with
  | nothing _ =>
    exact ⟨[], hleaves.takes hsource (.nothing _ (by simp)) (by simp) (by simp) .nil⟩
  | @first before after child _ hchildren _ hwants hgets =>
    refine ⟨[child], hleaves.takes hsource ?_ (by simp) ?_ ?_⟩
    · rw [hchildren]
      exact .middle _ _ _
    · simpa using isWanted_iff.mpr hwants
    · cases hgets with
      | nothing hobject => simp [hobject, Argument.elements]
      | object hview => exact forall₂_sees (.cons hview .nil)

/-- Whatever comes of a visit of elements, it takes children that its point wants. -/
theorem Leaves.prunes {v v' : Visit} {left : List (Node Instance)} (h : v.Leaves left v')
    (hsource : p.source = .element) (hdealt : ∃ taken, Dealt v.node.children [taken] left ∧
      ∀ child ∈ taken, isWanted p child) : v.node.Pruned [p] v'.node := by
  obtain ⟨taken, hdealt, hwanted⟩ := hdealt
  have htrimmed : v.node.Trimmed v'.node := by
    rw [h.node]
    rfl
  refine ⟨htrimmed, [taken], ?_, fun hand hhand child hchild => ?_⟩
  · rw [h.node]
    exact hdealt
  · cases List.mem_singleton.mp hhand
    exact ⟨p, List.mem_singleton_self p, hsource, hwanted child hchild⟩

/-! ## All sources -/

/-- **Visits** take what their point may take, and leave a receipt. -/
theorem visit_takes {visit : Visit → StateM Journal (Except AssemblyError Argument × Visit)}
    (hvisit : visit? p = some visit) (v : Visit) :
    Telling (fun r told => ∀ argument, r.1 = .ok argument → ∃ attributes children,
      Receipt.Takes { point := p, argument, attributes, children, told } v r.2) (visit v) := by
  have htotal : ∀ {step : StateM Journal (Argument × Visit)},
      Telling (fun r told => ∃ attributes, Receipt.Takes
        { point := p, argument := r.1, attributes, children := [], told } v r.2) step →
      Telling (fun r told => ∀ argument, r.1 = .ok argument → ∃ attributes children,
        Receipt.Takes { point := p, argument, attributes, children, told } v r.2) (total step) := by
    intro step hstep
    refine .bind hstep fun r told htakes => .pure fun argument hargument => ?_
    cases hargument
    obtain ⟨attributes, htakes⟩ := htakes
    rw [List.append_nil]
    exact ⟨attributes, [], htakes⟩
  unfold visit? visitWith? at hvisit
  split at hvisit
  · cases hvisit
  · next hsource =>
    cases hvisit
    exact htotal fun j => ((reader p v.context).visitAttribute_visits hsource v j).takes
  · next hsource =>
    cases hvisit
    exact htotal fun j => ((reader p v.context).visitValue_visits hsource v j).takes
  · next hsource =>
    cases hvisit
    have helement : ∀ {step : StateM Journal (Except AssemblyError Argument × Visit)},
        Telling (fun r told => ∀ argument, r.1 = .ok argument → ∃ children, Receipt.Takes
          { point := p, argument, attributes := [], children, told } v r.2) step →
        Telling (fun r told => ∀ argument, r.1 = .ok argument → ∃ attributes children, Receipt.Takes
          { point := p, argument, attributes, children, told } v r.2) step :=
      fun h => h.mono fun _ _ htakes argument hargument => ⟨[], htakes argument hargument⟩
    split
    · next hmultiple => exact helement (visitElements_takes hsource hmultiple v)
    · exact helement (visitElement_takes hsource v)
  · next hsource =>
    cases hvisit
    refine htotal (.bind (.debug _ _) fun _ _ _ => .bind (.allocate _) fun _ _ _ => .pure ?_)
    exact ⟨[], .nothing _ (by simp), .nothing _ (by simp), .refl _, rfl, rfl,
      .apart (.inr hsource) rfl rfl⟩

/-- Whatever comes of a visit, it takes attributes, and children that its point wants. -/
theorem visit_prunes {visit : Visit → StateM Journal (Except AssemblyError Argument × Visit)}
    (hvisit : visit? p = some visit) (v : Visit) :
    Yields (fun r => v.node.Pruned [p] r.2.node) (visit v) := by
  unfold visit? visitWith? at hvisit
  split at hvisit
  · cases hvisit
  · cases hvisit
    exact .bind (P := fun r : Argument × Visit => v.node.Pruned [p] r.2.node)
      (.after fun _ => .pure (.of_same rfl rfl)) fun _ hpruned => .pure hpruned
  · cases hvisit
    refine .bind (P := fun r : Argument × Visit => v.node.Pruned [p] r.2.node) ?_
      fun _ hpruned => .pure hpruned
    unfold Reader.visitValue
    dsimp only
    split
    · exact .after fun _ => .after fun _ => .pure (.of_same rfl rfl)
    · exact .after fun _ => .pure (.of_same rfl rfl)
  · next hsource =>
    cases hvisit
    intro j
    split
    · obtain ⟨told, -, result, left, -, hleaves, hcollects⟩ := visitElements_collects p v j
      exact hleaves.prunes hsource (collects_dealt hcollects)
    · obtain ⟨told, -, -, left, hleaves, hpicks⟩ := visitElement_picks p v j
      exact hleaves.prunes hsource (picks_dealt hpicks)
  · cases hvisit
    exact .bind (P := fun r : Argument × Visit => v.node.Pruned [p] r.2.node)
      (.after fun _ => .after fun _ => .pure (.refl _)) fun _ hpruned => .pure hpruned

end Visit

/-! ## Resolution -/

section

variable {given : Provider}

/-- A point is resolved with a receipt. -/
structure Receipt.Settles (given : Provider) (r : Receipt) (x y : Visit × State) : Prop where
  resolved : resolvePoint given r.point { node := some x.1.node, context := x.1.context } x.2 =
    ((.ok r.argument, { node := some y.1.node, context := y.1.context }), y.2)
  takes : r.Takes x.1 y.1
  told : x.2.journal.Tells y.2.journal r.told

/-- Points are resolved one after the other, each with a receipt. -/
inductive Takings (given : Provider) : List Receipt → Visit × State → Visit × State → Prop
  | nil (x : Visit × State) : Takings given [] x x
  | cons {r : Receipt} {rest : List Receipt} {x y z : Visit × State} (hfirst : r.Settles given x y)
      (hrest : Takings given rest y z) : Takings given (r :: rest) x z

theorem resolveDependency_place {p : InjectionPoint} {c c' : VisitContext} {argument : Argument}
    {s t : State} (h : resolveDependency given p c s = (.ok (argument, c'), t)) :
    c'.path = c.path ∧ c'.substitutor = c.substitutor := by
  cases hdeferred : p.deferred with
  | true =>
    rw [resolveDependency_deferred given c s hdeferred] at h
    cases h
    exact ⟨rfl, rfl⟩
  | false =>
    rw [resolveDependency_supplied given c s hdeferred] at h
    split at h <;> cases h <;> exact ⟨rfl, rfl⟩

/-- A point that is resolved at a node leaves a receipt. -/
theorem resolvePoint_settles (hgiven : given.Warns) {p : InjectionPoint} {v : Visit} {s t : State}
    {argument : Argument} {f : Focus}
    (h : resolvePoint given p { node := some v.node, context := v.context } s =
      ((.ok argument, f), t)) : ∃ (r : Receipt) (v' : Visit), r.point = p ∧ r.argument = argument ∧
      f = { node := some v'.node, context := v'.context } ∧ r.Settles given (v, s) (v', t) := by
  cases hvisit : Visit.visit? p with
  | none =>
    obtain ⟨told, htold, -⟩ := hgiven.program (Program.resolvePoint (r := .warning) (x := p)
      { node := some v.node, context := v.context } trivial) s
    rw [h] at htold
    have hrun := h
    rw [resolvePoint_apart given _ s hvisit] at hrun
    cases hdependency : resolveDependency given p v.context s with
    | mk result u =>
      rw [hdependency] at hrun
      cases result with
      | error stop => cases hrun
      | ok found =>
        obtain ⟨found, context⟩ := found
        cases hrun
        obtain ⟨hpath, hsubstitutor⟩ := resolveDependency_place hdependency
        refine ⟨{ point := p, argument, attributes := [], children := [], told }, { v with context },
          rfl, rfl, rfl, h, ?_, htold⟩
        exact ⟨.nothing _ (by simp), .nothing _ (by simp), .refl _, hpath, hsubstitutor,
          .apart (.inl (Visit.visit?_eq_none_iff.mp hvisit)) rfl rfl⟩
  | some visit =>
    obtain ⟨told, htold, htakes⟩ := Visit.visit_takes hvisit v s.journal
    have hrun := h
    rw [resolvePoint_visited given _ s hvisit rfl] at hrun
    dsimp only [Option.getD_some] at hrun
    cases hresult : (visit v s.journal).1.1 with
    | error cause =>
      rw [hresult] at hrun
      cases hrun
    | ok found =>
      rw [hresult] at hrun
      cases hrun
      obtain ⟨attributes, children, htakes⟩ := htakes _ hresult
      exact ⟨_, _, rfl, rfl, rfl, h, htakes, htold⟩

/-- Points that are resolved at a node leave a receipt each. -/
theorem InOrder.takings (hgiven : given.Warns) {ps : List InjectionPoint} {v : Visit} {s t : State}
    {arguments : List Argument} {f : Focus}
    (h : InOrder (resolving given) ps ({ node := some v.node, context := v.context }, s) arguments
      (f, t)) : ∃ (rs : List Receipt) (v' : Visit), rs.map (·.point) = ps ∧
      rs.map (·.argument) = arguments ∧ f = { node := some v'.node, context := v'.context } ∧
        Takings given rs (v, s) (v', t) := by
  generalize hx : (({ node := some v.node, context := v.context }, s) : Focus × State) = x at h
  generalize hy : (f, t) = y at h
  induction h generalizing v s with
  | nil =>
    cases hx
    cases hy
    exact ⟨[], v, rfl, rfl, rfl, .nil _⟩
  | @cons p rest _ y _ argument _ hfirst _ ih =>
    cases hx
    obtain ⟨f', u⟩ := y
    have hpoint : resolvePoint given p { node := some v.node, context := v.context } s =
        ((.ok argument, f'), u) := by
      simp only [resolving] at hfirst
      obtain ⟨hresult, hf, hu⟩ := Prod.mk.inj hfirst |>.imp id Prod.mk.inj
      exact Prod.ext (Prod.ext hresult hf) hu
    obtain ⟨r, v', rfl, rfl, rfl, hsettles⟩ := resolvePoint_settles hgiven hpoint
    obtain ⟨rs, v'', hpoints, harguments, hf, htakings⟩ := ih rfl hy
    exact ⟨r :: rs, v'', by rw [List.map_cons, hpoints], by rw [List.map_cons, harguments], hf,
      .cons hsettles htakings⟩

namespace Takings

variable {rs : List Receipt} {x y : Visit × State}

/-- The attributes are dealt out among the points. -/
theorem attributes (h : Takings given rs x y) :
    Dealt x.1.node.attributes (rs.map (·.attributes)) y.1.node.attributes := by
  induction h with
  | nil x => exact .nothing _ (by simp)
  | cons hfirst _ ih => exact hfirst.takes.attributes.append ih

/-- The children are dealt out among the points. -/
theorem children (h : Takings given rs x y) :
    Dealt x.1.node.children (rs.map (·.children)) y.1.node.children := by
  induction h with
  | nil x => exact .nothing _ (by simp)
  | cons hfirst _ ih => exact hfirst.takes.children.append ih

theorem trimmed (h : Takings given rs x y) : x.1.node.Trimmed y.1.node := by
  induction h with
  | nil x => exact .refl _
  | cons hfirst _ ih => exact hfirst.takes.trimmed.trans ih

/-- What was reported is on the receipts. -/
theorem told (h : Takings given rs x y) :
    x.2.journal.Tells y.2.journal (rs.flatMap (·.told)) := by
  induction h with
  | nil x => exact .refl _
  | cons hfirst _ ih => exact hfirst.told.trans ih

end Takings

theorem Receipt.Proper.congr {r : Receipt} {c c' : VisitContext} {text : Option String}
    (hpath : c'.path = c.path) (hsubstitutor : c'.substitutor = c.substitutor)
    (h : r.Proper c' text) : r.Proper c text := by
  have hsubstitute : c'.substitute = c.substitute := by
    funext raw
    unfold VisitContext.substitute
    rw [hsubstitutor]
  have hreads : ∀ raw, r.point.Reads c' raw r.argument r.told →
      r.point.Reads c raw r.argument r.told := by
    intro raw hreads
    unfold InjectionPoint.Reads at hreads ⊢
    rwa [← hpath, ← hsubstitute]
  cases h with
  | apart hsource hattributes hchildren => exact .apart hsource hattributes hchildren
  | fromAttribute hsource hchildren hone hname h =>
    exact .fromAttribute hsource hchildren hone hname fun a ha => hreads a.2 (h a ha)
  | fromValue hsource hchildren hone hname h hconflict =>
    exact .fromValue hsource hchildren hone hname (fun htext a ha => hreads a.2 (h htext a ha))
      (hpath ▸ hconflict)
  | fromElement hsource hattributes hone hwanted hobjects =>
    exact .fromElement hsource hattributes hone hwanted hobjects

/-- All receipts are proper, in the context in which the first point is resolved. -/
theorem Takings.proper {rs : List Receipt} {x y : Visit × State} (h : Takings given rs x y) :
    ∀ r ∈ rs, r.Proper x.1.context (Visit.elementText x.1.node) := by
  induction h with
  | nil x => exact fun r hr => by cases hr
  | @cons r rest x y z hfirst _ ih =>
    intro r' hr'
    rcases List.mem_cons.mp hr' with rfl | hr'
    · exact hfirst.takes.proper
    · have htext : Visit.elementText y.1.node = Visit.elementText x.1.node := by
        rw [hfirst.takes.trimmed]
        rfl
      rw [← htext]
      exact (ih r' hr').congr hfirst.takes.path hfirst.takes.substitutor

/-! ## Resolution that may fail -/

theorem resolvePoint_prunes {p : InjectionPoint} {n : Node Instance} {c : VisitContext} {s : State} :
    ∃ m, (resolvePoint given p { node := some n, context := c } s).1.2.node = some m ∧
      n.Pruned [p] m := by
  cases hvisit : Visit.visit? p with
  | none =>
    refine ⟨n, ?_, .refl n⟩
    rw [resolvePoint_apart given _ s hvisit]
    split <;> rfl
  | some visit =>
    have hpruned := Visit.visit_prunes hvisit { node := n, context := c } s.journal
    refine ⟨_, ?_, hpruned⟩
    rw [resolvePoint_visited given _ s hvisit rfl]
    rfl

/-- Resolution takes attributes and children only, whatever comes of it. -/
theorem resolving_prunes (given : Provider) (p : InjectionPoint) {n : Node Instance}
    {x : Focus × State} (hx : x.1.node = some n) :
    ∃ m, (resolving given p x).2.1.node = some m ∧ n.Pruned [p] m := by
  obtain ⟨⟨node, c⟩, s⟩ := x
  cases hx
  exact resolvePoint_prunes

theorem InOrder.prunes {ps : List InjectionPoint} {n : Node Instance} {x y : Focus × State}
    {arguments : List Argument} (hx : x.1.node = some n)
    (h : InOrder (resolving given) ps x arguments y) : ∃ m, y.1.node = some m ∧ n.Pruned ps m := by
  induction h generalizing n with
  | nil => exact ⟨n, hx, .refl n⟩
  | @cons p _ x _ _ _ _ hfirst _ ih =>
    obtain ⟨m, hm, hpruned⟩ := resolving_prunes given p hx
    rw [hfirst] at hm
    obtain ⟨k, hk, hpruned'⟩ := ih hm
    exact ⟨k, hk, (hpruned.mono (by simp)).trans (hpruned'.mono (List.subset_cons_self _ _))⟩

theorem FailsInOrder.prunes {ps : List InjectionPoint} {n : Node Instance} {x y : Focus × State}
    {stop : Stop} (hx : x.1.node = some n) (h : FailsInOrder (resolving given) ps x stop y) :
    ∃ m, y.1.node = some m ∧ n.Pruned ps m := by
  obtain ⟨before, p, after, as, z, rfl, hbefore, hfails⟩ := h
  obtain ⟨m, hm, hpruned⟩ := hbefore.prunes hx
  obtain ⟨k, hk, hpruned'⟩ := resolving_prunes given p hm
  rw [hfails] at hk
  exact ⟨k, hk, (hpruned.mono (List.subset_append_left _ _)).trans (hpruned'.mono (by simp))⟩

/-- A construction leaves its node as it was, but for attributes, and children that its points want. -/
theorem Staged.prunes {c : Construction} {n : Node Instance} {path : String} {s : State}
    {ended : (Except Stop Instance × Option (Node Instance)) × State}
    (h : Staged given c (some n) path s ended) :
    ∃ m, ended.1.2 = some m ∧ n.Pruned c.points m := by
  cases h with
  | refused _ => exact ⟨n, rfl, .refl n⟩
  | exhausted _ _ => exact ⟨n, rfl, .refl n⟩
  | unresolved _ _ hpoints => exact hpoints.prunes rfl
  | invalid _ _ hpoints _ => exact hpoints.prunes rfl
  | built _ _ hpoints _ _ _ _ => exact hpoints.prunes rfl

end

end ComponentAssembly

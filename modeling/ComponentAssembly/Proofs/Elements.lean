import ComponentAssembly.Proofs.Visits
import Mathlib.Data.List.Forall2

/-!
# Which children a point takes

A point wants the children of its name and those that can stand for its type (`InjectionPoint.Wants`).
A point for several elements parts the children in two, and both parts keep their order
(`InjectionPoint.Collects`); a point for one takes the first that it wants (`InjectionPoint.Picks`):

                              several                    one
    wanted, with an object    all taken                  the first is taken
    wanted, without one       left, and reported         the first is taken, and gives nothing
    others                    left                       left

The objects are seen as the type of the point (`InjectionPoint.Shows`).  The first one that cannot be
ends the visit.
-/

namespace ComponentAssembly

/-! ## Objects as the type of a point -/

/-- What the object of a plugin is as another type: itself if the class is of that type, else what the
first cast to it makes of a component of the type that the cast is declared for. -/
inductive PluginClass.Shows (c : PluginClass) (target : TypePath) (object : Instance) : Instance → Prop
  | same (h : c.type = target) : c.Shows target object object
  | view {cast : Cast} {component : Component} {view : Instance} (hother : c.type ≠ target)
      (hcast : c.casts.find? (·.target == target) = some cast)
      (hvalue : object.value = .component component) (htype : component.name.type = cast.source)
      (hview : view.value = .view target component) : c.Shows target object view

/-- An object is adapted if it can be seen as the type. -/
theorem PluginClass.adapt_shows (c : PluginClass) (object : Instance) (target : TypePath) :
    Telling (fun r told => told = [] ∧ (∀ view, r = some view → c.Shows target object view) ∧
      (r = none → ∀ view, ¬ c.Shows target object view)) (c.adapt object target) := by
  have hsome : ∀ {view : Instance}, c.Shows target object view →
      (∀ other, some view = some other → c.Shows target object other) ∧
        (some view = none → ∀ other, ¬ c.Shows target object other) := by
    intro view hview
    exact ⟨fun other hother => Option.some.inj hother ▸ hview, fun hnone => by cases hnone⟩
  unfold PluginClass.adapt
  split
  · next hsame => exact .pure ⟨rfl, hsome (.same hsame)⟩
  · next hother =>
    have hnone : (∀ cast component, c.casts.find? (·.target == target) = some cast →
        object.value = .component component → component.name.type ≠ cast.source) →
        (∀ other, (none : Option Instance) = some other → c.Shows target object other) ∧
          ((none : Option Instance) = none → ∀ other, ¬ c.Shows target object other) := by
      refine fun hno => ⟨fun other hsome => (by cases hsome), fun _ other hshows => ?_⟩
      cases hshows with
      | same hsame => exact hother hsame
      | view _ hcast hvalue htype _ => exact hno _ _ hcast hvalue htype
    split
    · next hcast => exact .pure ⟨rfl, hnone fun cast _ hsome => by rw [hcast] at hsome; cases hsome⟩
    · next cast hcast =>
      split
      · next component hvalue =>
        split
        · next htype =>
          refine .bind (.allocate _) ?_
          rintro view _ ⟨hview, rfl⟩
          exact .pure ⟨rfl, hsome (.view hother hcast hvalue htype hview)⟩
        · next htype =>
          refine .pure ⟨rfl, hnone fun cast' component' hcast' hvalue' => ?_⟩
          cases hcast.symm.trans hcast'
          cases hvalue.symm.trans hvalue'
          exact htype
      · next hvalue =>
        exact .pure ⟨rfl, hnone fun _ component _ hcomponent => absurd hcomponent (hvalue component)⟩

/-! ## What a point wants -/

namespace InjectionPoint

variable (p : InjectionPoint)

/-- A point wants the elements of its name or of an alias, ignoring ASCII case, and those whose class
can stand for its type. -/
def Wants (child : Node Instance) : Prop :=
  ∃ plugin, child.plugin = some plugin ∧
    ((∃ name ∈ p.name :: p.aliases, Text.sameIgnoringCase name plugin.elementName) ∨
      plugin.pluginClass.isAssignableTo p.key.type)

/-- The object of a child, seen as the type of a point. -/
def Shows (child : Node Instance) (view : Instance) : Prop :=
  ∃ plugin object, child.plugin = some plugin ∧ child.object = some object ∧
    plugin.pluginClass.Shows p.key.type object view

/-- The complaint that the object of a child cannot be seen as the type of a point. -/
def mismatch (child : Node Instance) : AssemblyError :=
  .typeMismatch (p.name ++ " <- " ++ child.label) p.key.type.shortName

end InjectionPoint

/-- What is said of a child that is wanted but has no object. -/
def Node.unresolved (path : String) (child : Node Instance) : Diagnostic where
  kind := .skippedElement
  path := path
  message := "跳过没有解析结果的子元素 " ++ child.label

namespace Visit

variable {p : InjectionPoint} {child : Node Instance}

theorem isWanted_iff : isWanted p child ↔ p.Wants child := by
  unfold isWanted InjectionPoint.Wants InjectionPoint.matchesName
  cases child.plugin with
  | none => simp
  | some plugin => simp

/-- A child that a point for several elements takes. -/
def isTaken (p : InjectionPoint) (child : Node Instance) : Bool :=
  isWanted p child && child.object.isSome

/-- A child that a point for several elements wants and cannot take. -/
def isSkipped (p : InjectionPoint) (child : Node Instance) : Bool :=
  isWanted p child && child.object.isNone

/-- The object of a wanted child is adapted, or there is a mismatch. -/
theorem adapted_shows {object : Instance} (hwanted : isWanted p child)
    (hobject : child.object = some object) :
    Telling (fun r told => told = [] ∧ ((∃ view, r = .ok view ∧ p.Shows child view) ∨
      r = .error (p.mismatch child) ∧ ∀ view, ¬ p.Shows child view)) (adapted p child object) := by
  obtain ⟨plugin, hplugin, -⟩ := isWanted_iff.mp hwanted
  unfold adapted
  rw [hplugin]
  refine .bind (plugin.pluginClass.adapt_shows object p.key.type) ?_
  rintro result _ ⟨rfl, hsome, hnone⟩
  cases result with
  | some view => exact .pure ⟨rfl, .inl ⟨view, rfl, plugin, object, hplugin, hobject, hsome view rfl⟩⟩
  | none =>
    refine .pure ⟨rfl, .inr ⟨rfl, fun view hview => ?_⟩⟩
    obtain ⟨plugin', object', hplugin', hobject', hshows⟩ := hview
    cases hplugin.symm.trans hplugin'
    cases hobject.symm.trans hobject'
    exact hnone rfl view hshows

end Visit

/-! ## Several elements -/

open Visit

/-- How a point for several elements parts children: what the objects of those it takes are for it,
which are left, and what is reported of them. -/
structure InjectionPoint.Parts (p : InjectionPoint) (path : String) (children : List (Node Instance))
    (views : List Instance) (left : List (Node Instance)) (told : List Diagnostic) : Prop where
  views : List.Forall₂ p.Shows (children.filter (isTaken p)) views
  left : left = children.filter fun child => !isTaken p child
  told : told = (children.filter (isSkipped p)).map (Node.unresolved path)

/-- How the visit of a point for several elements ends. -/
inductive InjectionPoint.Collects (p : InjectionPoint) (path : String) (children : List (Node Instance)) :
    Except AssemblyError (List Instance) → List (Node Instance) → List Diagnostic → Prop
  | all {views : List Instance} {left : List (Node Instance)} {told : List Diagnostic}
      (hparts : p.Parts path children views left told) : p.Collects path children (.ok views) left told
  /-- Only the children before the one whose object cannot be adapted are parted. -/
  | stopped {before after left : List (Node Instance)} {child : Node Instance}
      {views : List Instance} {told : List Diagnostic} (hchildren : children = before ++ child :: after)
      (hparts : p.Parts path before views left told) (htaken : isTaken p child)
      (hnot : ∀ view, ¬ p.Shows child view) :
      p.Collects path children (.error (p.mismatch child)) (left ++ child :: after) told

section

variable {p : InjectionPoint} {path : String} {child : Node Instance} {views : List Instance}
  {rest left : List (Node Instance)} {told : List Diagnostic}
  {result : Except AssemblyError (List Instance)}

namespace InjectionPoint.Parts

theorem nil : p.Parts path [] [] [] [] :=
  ⟨.nil, rfl, rfl⟩

/-- A child that is not taken stays; if it is wanted, it is reported. -/
theorem leave (h : p.Parts path rest views left told) (htaken : isTaken p child = false) :
    p.Parts path (child :: rest) views (child :: left)
      (if isSkipped p child then child.unresolved path :: told else told) where
  views := by simpa [htaken] using h.views
  left := by simp [htaken, h.left]
  told := by
    rw [h.told, List.filter_cons]
    split <;> rfl

theorem take (h : p.Parts path rest views left told) (htaken : isTaken p child) {view : Instance}
    (hview : p.Shows child view) : p.Parts path (child :: rest) (view :: views) left told where
  views := by
    rw [List.filter_cons_of_pos htaken]
    exact .cons hview h.views
  left := by simp [htaken, h.left]
  told := by
    have hskipped : isSkipped p child = false := by
      cases hobject : child.object <;> simp_all [isTaken, isSkipped]
    rw [h.told, List.filter_cons_of_neg (by simp [hskipped])]

end InjectionPoint.Parts

namespace InjectionPoint.Collects

theorem leave (h : p.Collects path rest result left told) (htaken : isTaken p child = false) :
    p.Collects path (child :: rest) result (child :: left)
      (if isSkipped p child then child.unresolved path :: told else told) := by
  cases h with
  | all hparts => exact .all (hparts.leave htaken)
  | stopped hchildren hparts hstops hnot =>
    exact .stopped (congrArg (child :: ·) hchildren) (hparts.leave htaken) hstops hnot

theorem take (h : p.Collects path rest result left told) (htaken : isTaken p child) {view : Instance}
    (hview : p.Shows child view) :
    p.Collects path (child :: rest) (result.map (view :: ·)) left told := by
  cases h with
  | all hparts => exact .all (hparts.take htaken hview)
  | stopped hchildren hparts hstops hnot =>
    exact .stopped (congrArg (child :: ·) hchildren) (hparts.take htaken hview) hstops hnot

end InjectionPoint.Collects

/-- Children are selected one after the other. -/
theorem Visit.select_collects (p : InjectionPoint) (c : VisitContext) (children : List (Node Instance)) :
    Telling (fun r told => p.Collects c.path children (r.1.map (·.objects)) r.2 told)
      (select p c children) := by
  induction children with
  | nil => exact .pure (.all .nil)
  | cons child rest ih =>
    unfold select
    split
    · next hnot =>
      have hwanted : isWanted p child = false := by simpa using hnot
      have htaken : isTaken p child = false := by simp [isTaken, hwanted]
      refine .bind ih fun r told hrest => .pure ?_
      have hleave := hrest.leave htaken
      rw [List.append_nil]
      simpa [isSkipped, hwanted] using hleave
    · next hnot =>
      have hwanted : isWanted p child = true := by simpa using hnot
      split
      · next hobject =>
        refine .bind (.report _ _ _) ?_
        rintro _ told rfl
        refine .bind ih fun r told hrest => .pure ?_
        have htaken : isTaken p child = false := by simp [isTaken, hobject]
        have hskipped : isSkipped p child = true := by simp [isSkipped, hwanted, hobject]
        have hleave := hrest.leave htaken
        rw [if_pos hskipped] at hleave
        rw [List.append_nil]
        exact hleave
      · next object hobject =>
        have htaken : isTaken p child = true := by simp [isTaken, hwanted, hobject]
        refine .bind (adapted_shows hwanted hobject) ?_
        rintro result _ ⟨rfl, ⟨view, rfl, hview⟩ | ⟨rfl, hnot⟩⟩
        · refine .bind ih fun r told hrest => .pure ?_
          have htake := hrest.take htaken hview
          rw [List.append_nil]
          cases hresult : r.1 <;> simpa [hresult, Except.map, Selection.cons] using htake
        · exact .pure (.stopped (List.nil_append _).symm .nil htaken hnot)

/-! ## One element -/

/-- What a point for one element has of the child that it takes. -/
inductive InjectionPoint.Gets (p : InjectionPoint) (child : Node Instance) :
    Except AssemblyError Argument → Prop
  | nothing (hobject : child.object = none) : p.Gets child (.ok .absent)
  | object {view : Instance} (hview : p.Shows child view) : p.Gets child (.ok (.object view))
  | mismatch (hobject : child.object ≠ none) (hnot : ∀ view, ¬ p.Shows child view) :
      p.Gets child (.error (p.mismatch child))

/-- A point for one element takes the first child that it wants. -/
inductive InjectionPoint.Picks (p : InjectionPoint) (children : List (Node Instance)) :
    Except AssemblyError Argument → List (Node Instance) → Prop
  | nothing (h : ∀ child ∈ children, ¬ p.Wants child) : p.Picks children (.ok .absent) children
  | first {before after : List (Node Instance)} {child : Node Instance}
      {result : Except AssemblyError Argument} (hchildren : children = before ++ child :: after)
      (hbefore : ∀ other ∈ before, ¬ p.Wants other) (hwants : p.Wants child)
      (hgets : p.Gets child result) : p.Picks children result (before ++ after)

/-- What a visit of elements makes of a node: only its children are not as before. -/
structure Visit.Leaves (v : Visit) (left : List (Node Instance)) (v' : Visit) : Prop where
  node : v'.node = { v.node with children := left }
  path : v'.context.path = v.context.path
  substitutor : v'.context.substitutor = v.context.substitutor

theorem Visit.visitElement_picks (p : InjectionPoint) (v : Visit) :
    Telling (fun r told => told = [] ∧ ∃ left, v.Leaves left r.2 ∧
      p.Picks v.node.children r.1 left) (visitElement p v) := by
  unfold visitElement
  split
  · next hnone =>
    have hsame : v.node = { v.node with children := v.node.children } := by cases v.node; rfl
    refine .pure ⟨rfl, v.node.children, ⟨hsame, rfl, rfl⟩, .nothing fun child hchild hwants => ?_⟩
    exact List.find?_eq_none.mp hnone child hchild (isWanted_iff.mpr hwants)
  · next child hfound =>
    obtain ⟨hwanted, before, after, hchildren, hbefore⟩ := List.find?_eq_some_iff_append.mp hfound
    have herase : v.node.children.eraseP (isWanted p) = before ++ after := by
      rw [hchildren, List.eraseP_append_right _ (by simpa using hbefore),
        List.eraseP_cons_of_pos hwanted]
    have hpicks : ∀ {result}, p.Gets child result → p.Picks v.node.children result (before ++ after) :=
      .first hchildren (fun other hother hwants => by
        simpa [isWanted_iff.mpr hwants] using hbefore other hother) (isWanted_iff.mp hwanted)
    rw [herase]
    dsimp only
    split
    · next hobject => exact .pure ⟨rfl, _, ⟨rfl, rfl, rfl⟩, hpicks (.nothing hobject)⟩
    · next object hobject =>
      refine .bind (adapted_shows hwanted hobject) ?_
      rintro result _ ⟨rfl, ⟨view, rfl, hview⟩ | ⟨rfl, hnot⟩⟩
      · exact .pure ⟨rfl, _, ⟨rfl, rfl, rfl⟩, hpicks (.object hview)⟩
      · exact .pure ⟨rfl, _, ⟨rfl, rfl, rfl⟩, hpicks (.mismatch (by simp [hobject]) hnot)⟩

theorem Visit.visitElements_collects (p : InjectionPoint) (v : Visit) :
    Telling (fun r told => ∃ result left, r.1 = result.map Argument.objects ∧ v.Leaves left r.2 ∧
      p.Collects v.context.path v.node.children result left told) (visitElements p v) := by
  unfold visitElements
  rw [collect_eq]
  refine .bind (select_collects p v.context v.node.children) ?_
  rintro ⟨selection, left⟩ told hcollects
  cases selection with
  | error cause => exact .pure ⟨_, left, rfl, ⟨rfl, rfl, rfl⟩, by simpa using hcollects⟩
  | ok s => exact .pure ⟨_, left, rfl, ⟨rfl, rfl, rfl⟩, by simpa using hcollects⟩

/-- **Elements are parted, and keep their order.**  A point for several elements takes the children
that it wants and that have an object, in their order, and has what their objects are for it; it leaves
the others, and reports each one of them that it wanted.  It ends early, with a mismatch, if and only if
an object cannot be adapted.  A point for one takes the first child that it wants. -/
theorem Visit.visit_element {p : InjectionPoint} (hsource : p.source = .element) (v : Visit)
    (j : Journal) : ∃ visit argument left v' told k, visit? p = some visit ∧
      visit v j = ((argument, v'), k) ∧ v.Leaves left v' ∧ j.Tells k told ∧
      (p.multiple = true → ∃ result, argument = result.map Argument.objects ∧
        p.Collects v.context.path v.node.children result left told) ∧
      (p.multiple = false → told = [] ∧ p.Picks v.node.children argument left) := by
  have hvisit : visit? p = some (if p.multiple then visitElements p else visitElement p) := by
    unfold visit? visitWith?
    rw [hsource]
  cases hmultiple : p.multiple with
  | true =>
    rw [hmultiple, if_pos rfl] at hvisit
    obtain ⟨told, htells, result, left, hresult, hleaves, hcollects⟩ := visitElements_collects p v j
    exact ⟨_, _, left, _, told, _, hvisit, rfl, hleaves, htells, fun _ => ⟨result, hresult, hcollects⟩,
      fun h => absurd h (by decide)⟩
  | false =>
    rw [hmultiple, if_neg Bool.false_ne_true] at hvisit
    obtain ⟨told, htells, hnothing, left, hleaves, hpicks⟩ := visitElement_picks p v j
    exact ⟨_, _, left, _, told, _, hvisit, rfl, hleaves, htells, fun h => absurd h (by decide),
      fun _ => ⟨hnothing, hpicks⟩⟩

end

def PluginType.book : PluginType :=
  .ofClass "Book" "library" (.of ⟨"Book"⟩)

def InjectionPoint.books : InjectionPoint :=
  fromElements "book" ⟨"Book"⟩

def Node.book (object : Option Instance) : Node Instance :=
  { name := "book", plugin := some .book, object }

/-- A visit of a shelf of books, of which one is lost, and other things. -/
def Visit.shelf : Visit where
  node := { name := "Shelf", children :=
    [{ name := "vase" }, .book (some default), .book none, { name := "clock" }, .book (some default)] }
  context := { path := "Shelf" }

@[simp]
theorem Visit.isWanted_book (object : Option Instance) : isWanted .books (.book object) = true :=
  isWanted_iff.mpr ⟨.book, rfl, .inr (by decide)⟩

@[simp]
theorem Visit.isTaken_book (object : Option Instance) :
    isTaken .books (.book object) = object.isSome := by
  rw [isTaken, isWanted_book]
  rfl

@[simp]
theorem Visit.isSkipped_book (object : Option Instance) :
    isSkipped .books (.book object) = object.isNone := by
  rw [isSkipped, isWanted_book]
  rfl

/-- What has no plugin is not wanted. -/
@[simp]
theorem Visit.isTaken_other (name : String) : isTaken .books { name } = false := rfl

@[simp]
theorem Visit.isSkipped_other (name : String) : isSkipped .books { name } = false := rfl

/-- Of the shelf the two books are taken, and the lost one is reported. -/
theorem Visit.visit_element_shelf : ∃ visit views told v' k, visit? .books = some visit ∧
    visit shelf {} = ((.ok (.objects views), v'), k) ∧ k.diagnostics = told ∧ views.length = 2 ∧
    v'.node.children = [{ name := "vase" }, .book none, { name := "clock" }] ∧
    told = [(Node.book none).unresolved "Shelf"] := by
  have hsource : InjectionPoint.books.source = .element := rfl
  obtain ⟨visit, argument, left, v', told, k, hvisit, hrun, hleaves, htells, hseveral, -⟩ :=
    visit_element hsource shelf {}
  obtain ⟨result, rfl, hcollects⟩ := hseveral rfl
  have htaken : shelf.node.children.filter (isTaken .books) =
      [.book (some default), .book (some default)] := by
    simp [shelf, isTaken_book, isTaken_other]
  cases hcollects with
  | all hparts =>
    refine ⟨visit, _, told, v', k, hvisit, hrun, htells.diagnostics,
      hparts.views.length_eq.symm.trans (congrArg List.length htaken), ?_, hparts.told.trans ?_⟩
    · rw [hleaves.node, hparts.left]
      simp [shelf, isTaken_book, isTaken_other]
    · simp [shelf, isSkipped_book, isSkipped_other]
  | @stopped _ _ _ child _ _ hchildren _ hstops hnot =>
    have hmem : child ∈ shelf.node.children.filter (isTaken .books) :=
      List.mem_filter.mpr ⟨by simp [hchildren], hstops⟩
    have hbook : child = .book (some default) := by simpa [htaken] using hmem
    exact absurd ⟨.book, default, by rw [hbook]; rfl, by rw [hbook]; rfl, .same (by decide)⟩
      (hnot default)

end ComponentAssembly

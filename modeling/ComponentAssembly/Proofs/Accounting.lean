import ComponentAssembly.Proofs.Containment
import ComponentAssembly.Proofs.Takings

/-!
# Configuration accounts for all of a node

Of the attributes and children of a node that is configured, each is taken for one point or left, and
what is neither in an argument nor left is reported (`Accounted`, `configureNode_accounts`):

    children    configured one after the other; those without a plugin type are skipped and reported
    points      each takes what it may, and leaves a receipt
    leftovers   reported at the end, first the attributes and then the children with a plugin type
-/

namespace ComponentAssembly

open Assemble

/-! ## Leftovers -/

/-- What is reported of what is left of a node. -/
def Node.leftovers (n : Node Instance) (path : String) : List Diagnostic :=
  (n.attributes.map fun (name, value) =>
    { kind := .unmatchedConfiguration, path,
      message := n.name ++ " 包含无效的属性 \"" ++ name ++ "\"=\"" ++ value ++ "\"" }) ++
  (n.children.filter (·.plugin.isSome)).map fun child =>
    { kind := .unmatchedConfiguration, path,
      message := n.name ++ " 包含无效的子元素 " ++ child.label }

theorem tells_forIn {α : Type} {as : List α} {told : α → List Diagnostic}
    {body : α → PUnit → StateM State (ForInStep PUnit)}
    (hbody : ∀ a s, (body a ⟨⟩ s).1 = .yield ⟨⟩ ∧
      s.journal.Tells (body a ⟨⟩ s).2.journal (told a)) (s : State) :
    s.journal.Tells (forIn as PUnit.unit body s).2.journal (as.flatMap told) := by
  induction as generalizing s with
  | nil => exact .refl _
  | cons a rest ih =>
    obtain ⟨hyield, htold⟩ := hbody a s
    simp only [List.forIn_cons, run_stateBind, hyield]
    exact htold.trans (ih _)

/-- **Leftovers** are reported one by one. -/
theorem tells_reportLeftovers (n : Node Instance) (path : String) (s : State) :
    s.journal.Tells (reportLeftovers n path s).2.journal (n.leftovers path) := by
  have hfilter : ∀ (children : List (Node Instance)) (f : Node Instance → Diagnostic),
      (children.filter (·.plugin.isSome)).map f =
        children.flatMap fun child => if child.plugin.isSome then [f child] else [] := by
    intro children f
    induction children with
    | nil => rfl
    | cons child rest ih => cases hplugin : child.plugin.isSome <;> simp [hplugin, ih]
  rw [Node.leftovers, List.map_eq_flatMap, hfilter]
  refine Journal.Tells.trans (tells_forIn (fun a s => ⟨rfl, ?_⟩) s)
    (tells_forIn (fun child s => ?_) _)
  · exact s.journal.tells_report .unmatchedConfiguration path _
  · by_cases hplugin : child.plugin.isSome = true
    · rw [if_pos hplugin, if_pos hplugin]
      exact ⟨rfl, s.journal.tells_report .unmatchedConfiguration path _⟩
    · rw [if_neg hplugin, if_neg hplugin]
      exact ⟨rfl, .refl _⟩

/-! ## What configuration leaves alone -/

section

variable {depth : Nat} {plugin : PluginType} {n n' : Node Instance} {path : String} {s t : State}
  {r : Except Stop (Option Instance)}

/-- A node that was tried is the same but for its attributes, its children and its object; its children
are taken by the points of its construction. -/
theorem configureSelf_prunes
    (h : configureSelf (Provider.of (callWithin depth)) plugin n path s = ((r, n'), t)) :
    ∃ m object, n.Pruned (s.declared plugin.pluginClass.type).points m ∧ n' = { m with object } := by
  have hstaged := construct_staged depth (s.declared plugin.pluginClass.type) (some n) path
    (Attempt.root plugin n path s).state
  have htried := configureSelf_tried (Provider.of (callWithin depth)) plugin n path s
  rw [h] at htried
  cases htried with
  | @built object left u hconstruct =>
    rw [hconstruct] at hstaged
    obtain ⟨m, rfl, hpruned⟩ := hstaged.prunes
    exact ⟨m, some object, hpruned, rfl⟩
  | @invalid cause left u hcause hconstruct =>
    rw [hconstruct] at hstaged
    obtain ⟨m, rfl, hpruned⟩ := hstaged.prunes
    exact ⟨m, none, hpruned, rfl⟩
  | @stopped stop left u hstop hconstruct =>
    rw [hconstruct] at hstaged
    obtain ⟨m, rfl, hpruned⟩ := hstaged.prunes
    exact ⟨m, m.object, hpruned, by cases m; rfl⟩

/-- A node keeps its name and its plugin type. -/
theorem configureNode_keeps
    (h : configureNode (Provider.of (callWithin depth)) n path s = ((r, n'), t)) :
    n'.name = n.name ∧ n'.plugin = n.plugin := by
  have hself : ∀ (p : PluginType) (k : Node Instance) (path : String) (u : State),
      (configureSelf (Provider.of (callWithin depth)) p k path u).1.2.name = k.name ∧
        (configureSelf (Provider.of (callWithin depth)) p k path u).1.2.plugin = k.plugin := by
    intro p k path u
    obtain ⟨⟨⟨r, k'⟩, t⟩, hrun⟩ : ∃ ended,
        configureSelf (Provider.of (callWithin depth)) p k path u = ended := ⟨_, rfl⟩
    obtain ⟨m, object, hpruned, rfl⟩ := configureSelf_prunes hrun
    rw [hrun, hpruned.trimmed]
    exact ⟨rfl, rfl⟩
  have hcases : ConfigurationCases (Provider.of (callWithin depth))
      (fun n _ _ _ ended => ended.1.2.name = n.name ∧ ended.1.2.plugin = n.plugin)
      (fun _ _ _ _ _ _ => True) :=
    { untyped := fun _ _ _ _ => ⟨rfl, rfl⟩
      deferred := fun n p path s _ _ => hself p n path s
      passed := fun n p path _ _ _ _ children t _ => hself p { n with children } path t
      stopped := fun _ _ _ _ _ _ _ _ _ _ _ => ⟨rfl, rfl⟩
      nil := fun _ _ _ => trivial
      skipped := fun _ _ _ _ _ _ _ _ _ _ _ => trivial
      stops := fun _ _ _ _ _ _ _ _ _ _ _ => trivial
      cons := fun _ _ _ _ _ _ _ _ _ _ _ _ _ _ _ _ => trivial }
  have hkeeps := hcases.node n path s
  rwa [h] at hkeeps

end

/-! ## Children -/

/-- What is said of a child without a plugin type. -/
def Node.skipped (child : Node Instance) (path : String) : Diagnostic where
  kind := .skippedElement
  path := path ++ "." ++ child.name
  message := "子元素 " ++ child.name ++ " 没有对应的插件类型, 已跳过"

/-- A child before and after its configuration, and what was reported meanwhile. -/
structure Raised where
  child : Node Instance
  grown : Node Instance
  told : List Diagnostic

/-- A child without a plugin type is left as it is and reported once.  Any other is configured; if it
has no object then, its failed validation was reported. -/
inductive Raised.Proper (given : Provider) (path : String) (r : Raised) : Prop
  | skipped (hchild : r.child.plugin = none) (hgrown : r.grown = r.child)
      (htold : r.told = [r.child.skipped path])
  | configured {s t : State} (hchild : r.child.plugin ≠ none)
      (hrun : configureNode given r.child (path ++ "." ++ r.child.name) s =
        ((.ok r.grown.object, r.grown), t))
      (hkeeps : r.grown.name = r.child.name ∧ r.grown.plugin = r.child.plugin)
      (htold : s.journal.Tells t.journal r.told)
      (hreported : r.grown.object = none → ∃ message,
        { kind := .validationFailure, path := path ++ "." ++ r.child.name, message } ∈ r.told)

/-- Children before and after their configuration, one raised after the other. -/
structure Raises (given : Provider) (path : String) (raised : List Raised)
    (children grown : List (Node Instance)) (s t : State) : Prop where
  children : raised.map (·.child) = children
  grown : raised.map (·.grown) = grown
  proper : ∀ r ∈ raised, r.Proper given path
  told : s.journal.Tells t.journal (raised.flatMap (·.told))

theorem Raises.cons {given : Provider} {path : String} {r : Raised} {raised : List Raised}
    {children grown : List (Node Instance)} {s t u : State} (hproper : r.Proper given path)
    (htold : s.journal.Tells t.journal r.told) (h : Raises given path raised children grown t u) :
    Raises given path (r :: raised) (r.child :: children) (r.grown :: grown) s u where
  children := by rw [List.map_cons, h.children]
  grown := by rw [List.map_cons, h.grown]
  proper := by
    intro r' hr'
    rcases List.mem_cons.mp hr' with rfl | hr'
    · exact hproper
    · exact h.proper r' hr'
  told := htold.trans h.told

section

variable {depth : Nat} {child child' : Node Instance} {children grown : List (Node Instance)}
  {path : String} {s t : State} {object : Option Instance}

theorem configureNode_raises (hchild : child.plugin ≠ none)
    (h : configureNode (Provider.of (callWithin depth)) child (path ++ "." ++ child.name) s =
      ((.ok object, child'), t)) : child'.object = object ∧ ∃ told,
      (Raised.mk child child' told).Proper (Provider.of (callWithin depth)) path ∧
        s.journal.Tells t.journal told := by
  have hcontained := configureNode_contained (Provider.warns_of_callWithin depth) child
    (path ++ "." ++ child.name) s
  rw [h] at hcontained
  have hobject : child'.object = object := hcontained.object object rfl
  subst hobject
  obtain ⟨told, htold, hfailures⟩ := hcontained.failures
  refine ⟨rfl, told, .configured hchild h (configureNode_keeps h) htold fun hnone => ?_, htold⟩
  rw [show child'.object = none from hnone] at hcontained
  obtain ⟨message, hmem⟩ := hcontained.reported
  rw [← hfailures] at hmem
  exact ⟨message, (List.mem_filter.mp hmem).1⟩

theorem configureChildren_raises
    (h : configureChildren (Provider.of (callWithin depth)) children path s =
      ((.ok (), grown), t)) :
    ∃ raised, Raises (Provider.of (callWithin depth)) path raised children grown s t := by
  induction children generalizing grown s with
  | nil =>
    rw [(configureChildren_nil _ 0 path s).1] at h
    cases h
    exact ⟨[], rfl, rfl, by simp, .refl _⟩
  | cons child rest ih =>
    by_cases hplugin : child.plugin = none
    · have htold := s.journal.tells_report .skippedElement (path ++ "." ++ child.name)
        ("子元素 " ++ child.name ++ " 没有对应的插件类型, 已跳过")
      cases hrest : configureChildren (Provider.of (callWithin depth)) rest path
          (reportAt .skippedElement (path ++ "." ++ child.name)
            ("子元素 " ++ child.name ++ " 没有对应的插件类型, 已跳过") s).2 with
      | mk ended u =>
        obtain ⟨result, grown'⟩ := ended
        rw [(configureChildren_skipped (i := 0) _ hplugin rfl hrest).1] at h
        cases h
        obtain ⟨raised, hraised⟩ := ih hrest
        have hproper : (Raised.mk child child [child.skipped path]).Proper
            (Provider.of (callWithin depth)) path := .skipped hplugin rfl rfl
        exact ⟨_, hraised.cons hproper htold⟩
    · cases hrun : configureNode (Provider.of (callWithin depth)) child
          (path ++ "." ++ child.name) s with
      | mk ended u =>
        obtain ⟨result, child'⟩ := ended
        cases result with
        | error stop =>
          rw [(configureChildren_stopped _ rest 0 hplugin hrun).1] at h
          cases h
        | ok object =>
          obtain ⟨rfl, told, hproper, htold⟩ := configureNode_raises hplugin hrun
          cases hrest : configureChildren (Provider.of (callWithin depth)) rest path u with
          | mk ended' v =>
            obtain ⟨result', grown'⟩ := ended'
            rw [(configureChildren_passed (i := 0) _ hplugin hrun hrest).1] at h
            cases h
            obtain ⟨raised, hraised⟩ := ih hrest
            cases child'
            exact ⟨_, hraised.cons hproper htold⟩

end

theorem filter_raised {given : Provider} {path : String} {raised : List Raised}
    (h : ∀ r ∈ raised, r.Proper given path) :
    (raised.map (·.grown)).filter (·.plugin.isNone) =
      (raised.map (·.child)).filter (·.plugin.isNone) := by
  induction raised with
  | nil => rfl
  | cons r rest ih =>
    have hrest := ih fun r hr => h r (List.mem_cons_of_mem _ hr)
    rw [List.map_cons, List.map_cons]
    cases h r List.mem_cons_self with
    | skipped hchild hgrown _ => rw [hgrown, List.filter_cons, List.filter_cons, hrest]
    | configured hchild _ hkeeps _ _ =>
      have hgrown : ¬ r.grown.plugin.isNone = true := by simpa [hkeeps.2] using hchild
      have hchild : ¬ r.child.plugin.isNone = true := by simpa using hchild
      simp [hgrown, hchild, hrest]

/-- Only children with a plugin type are taken. -/
theorem Receipt.Proper.plugin {r : Receipt} {c : VisitContext} {text : Option String}
    (h : r.Proper c text) : ∀ child ∈ r.children, child.plugin ≠ none := by
  intro child hchild
  cases h with
  | apart _ _ hnone =>
    rw [hnone] at hchild
    cases hchild
  | fromAttribute _ hnone _ _ _ =>
    rw [hnone] at hchild
    cases hchild
  | fromValue _ hnone _ _ _ _ =>
    rw [hnone] at hchild
    cases hchild
  | fromElement _ _ _ hwanted _ =>
    intro hnone
    have := hwanted child hchild
    simp [Visit.isWanted, hnone] at this

/-! ## Accounts -/

/-- What there is to say of a node that was configured, as a plugin type and at a path: how its children
were configured, and what each point of the construction got. -/
structure Accounted (given : Provider) (plugin : PluginType) (n : Node Instance) (path : String)
    (s : State) (object : Instance) (n' : Node Instance) (t : State) (raised : List Raised)
    (substitutor : Option Substitutor) (receipts : List Receipt) : Prop where
  /-- Each child was configured, or skipped if it has no plugin type. -/
  configured : raised.map (·.child) = n.children ∧ ∀ r ∈ raised, r.Proper given path
  /-- Then the points were resolved in order, each with a receipt. -/
  resolved : receipts.map (·.point) = (s.declared plugin.pluginClass.type).points ∧
    ∃ u left v, Takings given receipts
      ({ node := { n with children := raised.map (·.grown) }, context := { path, substitutor } }, u)
      (left, v) ∧ n' = { left.node with object := some object }
  /-- The object was built from the arguments on the receipts. -/
  built : ∃ prepared u v, prepared.arguments = receipts.map (·.argument) ∧
    Built given (s.declared plugin.pluginClass.type) prepared u (.ok object, v)
  /-- Each point took what it may, and what is not in its argument is reported. -/
  proper : ∀ r ∈ receipts, r.Proper { path, substitutor } (Visit.elementText n)
  /-- Each attribute went to one point or is left, and what is left is in order. -/
  attributes : Dealt n.attributes (receipts.map (·.attributes)) n'.attributes ∧
    (receipts.flatMap (·.attributes) ++ n'.attributes).Perm n.attributes ∧
    n'.attributes.Sublist n.attributes
  /-- So is each child. -/
  children : Dealt (raised.map (·.grown)) (receipts.map (·.children)) n'.children ∧
    (receipts.flatMap (·.children) ++ n'.children).Perm (raised.map (·.grown)) ∧
    n'.children.Sublist (raised.map (·.grown))
  /-- All children without a plugin type are left. -/
  untyped : n'.children.filter (·.plugin.isNone) = n.children.filter (·.plugin.isNone)
  /-- A child that was taken without an object has its failed validation reported. -/
  lost : ∀ r ∈ receipts, ∀ child ∈ r.children, child.object = none → ∃ message,
    { kind := .validationFailure, path := path ++ "." ++ child.name, message } ∈
      raised.flatMap (·.told)
  /-- Nothing else of the node has changed. -/
  rest : n' = { n with attributes := n'.attributes, children := n'.children, object := some object }
  /-- What was reported ends with what is left. -/
  told : ∃ found built, s.journal.Tells t.journal (raised.flatMap (·.told) ++ found ++
    receipts.flatMap (·.told) ++ built ++ n'.leftovers path)

section

variable {depth : Nat} {plugin : PluginType} {n n' : Node Instance} {path : String} {s t u : State}
  {object : Instance} {left : Option (Node Instance)}

/-- A node with an object had its children configured and was built then, and what it leaves over is
reported. -/
theorem configureNode_object {given : Provider} (hplugin : n.plugin = some plugin)
    (hdefer : plugin.entry.defer = false)
    (h : configureNode given n path s = ((.ok (some object), n'), t)) : ∃ children s',
      configureChildren given n.children path s = ((.ok (), children), s') ∧ ∃ left u,
        construct given (s'.declared plugin.pluginClass.type) (some { n with children }) path
          (Attempt.root plugin { n with children } path s').state = ((.ok object, left), u) ∧
        n' = { left.getD { n with children } with object := some object } ∧
        t = if u.reportUnmatched && !keepsNode (left.getD { n with children })
            (s'.declared plugin.pluginClass.type) then
            (reportLeftovers (left.getD { n with children }) path u).2
          else u := by
  cases hchildren : configureChildren given n.children path s with
  | mk ended s' =>
    obtain ⟨below, children⟩ := ended
    cases below with
    | error stop =>
      rw [(configureNode_stopped _ hplugin hdefer hchildren).1] at h
      cases h
    | ok _ =>
      rw [(configureNode_passed _ hplugin hdefer hchildren).1] at h
      have htried := configureSelf_tried given plugin { n with children } path s'
      rw [h] at htried
      cases htried with
      | @built _ left u hconstruct => exact ⟨children, s', rfl, left, u, hconstruct, rfl, rfl⟩

/-- A construction that returns was prepared, with a receipt for each point, and built. -/
theorem construct_accounts {c : Construction}
    (h : construct (Provider.of (callWithin depth)) c (some n) path s = ((.ok object, left), u)) :
    ∃ (receipts : List Receipt) (substitutor : Option Substitutor) (v : Visit) (s₁ s₂ : State),
      receipts.map (·.point) = c.points ∧
      Takings (Provider.of (callWithin depth)) receipts
        ({ node := n, context := { path, substitutor } }, s₁) (v, s₂) ∧
      left = some v.node ∧
      (∃ prepared s₃ v, prepared.arguments = receipts.map (·.argument) ∧
        Built (Provider.of (callWithin depth)) c prepared s₃ (.ok object, v)) ∧
      s.Warned s₁ ∧ s₂.Warned u := by
  have hgiven := Provider.warns_of_callWithin depth
  have hprepare := prepare_staged (Provider.of (callWithin depth)) c (some n) path s
    fun stop t h => substitutor_stops h
  cases hprepared : prepare (Provider.of (callWithin depth)) c (some n) path s with
  | mk ended s₂ =>
    obtain ⟨result, node⟩ := ended
    rw [hprepared] at hprepare
    cases result with
    | error stop =>
      rw [construct_unprepared hprepared] at h
      cases h
    | ok p =>
      obtain ⟨s₁, substitutor, f, -, hsubstitutor, hpoints, -, hfits, rfl⟩ := hprepare
      have hproper := hpoints.proper
      obtain ⟨receipts, v, hreceipts, harguments, rfl, htakings⟩ := hpoints.takings
        (v := { node := n, context := { path, substitutor } }) hgiven
      obtain ⟨log, r, s₄, ⟨message, fields, hlog⟩, hbuild, hrun⟩ := construct_prepared hprepared
      rw [hrun] at h
      cases h
      have hwarned := hgiven.program (Program.build (r := .warning) c
        (fun a ha => hproper a (List.mem_append_left _ ha)) fun as has a ha =>
          hproper a (List.mem_append_right _ (List.mem_flatten.mpr ⟨as, has, ha⟩)))
        { s₂ with journal := { s₂.journal with log } }
      have hbuilt := build_ends (Provider.of (callWithin depth)) c p
        { s₂ with journal := { s₂.journal with log } }
      rw [hbuild] at hbuilt hwarned
      have hlogged := ((Journal.Quiet.debug message fields).still s₂.journal).2.2
      rw [hlog] at hlogged
      have hfound := hgiven.program (Program.substitutor (r := .warning)) s
      rw [hsubstitutor] at hfound
      exact ⟨receipts, substitutor, v, s₁, s₂, hreceipts, htakings, rfl,
        ⟨p, _, u, harguments.symm, hbuilt⟩, hfound, hlogged.trans hwarned⟩

end

/-- **Configuration accounts for all of a node.**  Wherever a node with undeferred children is
configured, and whatever points its construction has but node points: if that gives an object, each
attribute and each child was taken for one point or is left, and what is left is reported. -/
theorem configureNode_accounts (depth : Nat) (n : Node Instance) (path : String) (s : State)
    {plugin : PluginType} (hplugin : n.plugin = some plugin) (hdefer : plugin.entry.defer = false)
    (hnode : ∀ p ∈ (s.declared plugin.pluginClass.type).points, p.source ≠ .node)
    (hreport : s.reportUnmatched = true) {object : Instance} {n' : Node Instance} {t : State}
    (h : configureNode (Provider.of (callWithin depth)) n path s = ((.ok (some object), n'), t)) :
    ∃ raised substitutor receipts, Accounted (Provider.of (callWithin depth)) plugin n path s object
      n' t raised substitutor receipts := by
  have hgiven := Provider.warns_of_callWithin depth
  -- The children come first, and leave the settings as they were.
  obtain ⟨grown, s₀, hchildren, hself⟩ := configureNode_object hplugin hdefer h
  have hsettings := State.SameSettings.program
    (Program.configureChildren n.children path trivial fun _ _ _ _ _ => trivial) depth s
  rw [hchildren] at hsettings
  obtain ⟨raised, hchild, rfl, hraised, htold⟩ := configureChildren_raises hchildren
  -- Then the points take what they may, and the object is built.
  obtain ⟨left, u, hconstruct, hn', ht⟩ := hself
  rw [hsettings.declared] at hconstruct ht
  have hsettings' := State.SameSettings.program
    (Program.construct (c := s.declared plugin.pluginClass.type)
      (some { n with children := raised.map (·.grown) }) path fun _ _ => trivial) depth
    (Attempt.root plugin { n with children := raised.map (·.grown) } path s₀).state
  rw [hconstruct] at hsettings'
  obtain ⟨receipts, substitutor, v, s₁, s₂, hpoints, htakings, rfl, hbuilt, ⟨found, hfound, -⟩,
    ⟨built, hbuild, -⟩⟩ := construct_accounts hconstruct
  have hproper := htakings.proper
  have htrimmed := htakings.trimmed
  -- What is left is reported.
  have hleft : t = (reportLeftovers v.node path u).2 := by
    have hreport' : u.reportUnmatched = true :=
      hsettings'.setting.trans (hsettings.setting.trans hreport)
    have hkeeps : keepsNode v.node (s.declared plugin.pluginClass.type) = false := by
      have hdefers : v.node.defersChildren = false := by
        rw [htrimmed]
        simp [Node.defersChildren, hplugin, hdefer]
      simpa [keepsNode, hdefers] using hnode
    rw [ht, hreport']
    simp [hkeeps]
  have hattributes := htakings.attributes
  have hchildren := htakings.children
  have htyped : ∀ hand ∈ receipts.map (·.children), ∀ child ∈ hand, child.plugin ≠ none := by
    intro hand hhand
    obtain ⟨r, hr, rfl⟩ := List.mem_map.mp hhand
    exact (hproper r hr).plugin
  subst hn'
  refine ⟨raised, substitutor, receipts, ⟨hchild, hraised⟩, ⟨hpoints, s₁, v, s₂, htakings, rfl⟩,
    hbuilt, hproper, ⟨hattributes, hattributes.perm, hattributes.sublist⟩,
    ⟨hchildren, hchildren.perm, hchildren.sublist⟩, ?_, ?_, ?_, found, built, ?_⟩
  · show v.node.children.filter (·.plugin.isNone) = _
    rw [hchildren.filter_left fun hand hhand child hchild => by
      simpa [Option.isSome_iff_ne_none] using htyped hand hhand child hchild,
      filter_raised hraised, hchild]
  · intro r hr child hmem hnone
    have hgrown := hchildren.mem_items (List.mem_map_of_mem hr) hmem
    obtain ⟨r', hr', rfl⟩ := List.mem_map.mp hgrown
    cases hraised r' hr' with
    | skipped huntyped hsame _ => exact absurd (hsame ▸ huntyped) ((hproper r hr).plugin _ hmem)
    | configured _ _ hkeeps _ hreported =>
      obtain ⟨message, htells⟩ := hreported hnone
      exact ⟨message, List.mem_flatMap.mpr ⟨r', hr', hkeeps.1 ▸ htells⟩⟩
  · exact htrimmed.with_object (some object)
  · have hdebug := s₀.journal.tells_write (LogRecord.diagnostic?_debug "构建插件"
      [("plugin", plugin.name), ("class", plugin.pluginClass.className), ("path", path)])
    have hall := ((((htold.trans hdebug).trans hfound).trans htakings.told).trans hbuild).trans
      (tells_reportLeftovers v.node path u)
    rw [← hleft, List.append_nil] at hall
    exact hall

namespace Workshop

def lamp : PluginType := .ofClass "Lamp" "Core" (.of ⟨"Lamp"⟩)

def panel : PluginType := .ofClass "Panel" "Core" (.of ⟨"Panel"⟩)

def state : State where
  declarations :=
    [(⟨"Panel"⟩, { Construction.plain ⟨"Panel"⟩ with
      parameters := [.fromAttribute "title" ⟨"Text"⟩] })]

def node : Node Instance where
  name := "panel"
  plugin := some panel
  attributes := [("title", "Main"), ("colour", "red")]
  children := [{ name := "lamp", plugin := some lamp }, { name := "note" }]

/-- A panel leaves its colour and its children. -/
theorem accounted_panel : ∃ object n' t raised substitutor receipts,
    configureNode (Provider.of (callWithin 2)) node "panel" state = ((.ok (some object), n'), t) ∧
      (n'.attributes = [("colour", "red")] ∧ n'.children.map (·.name) = ["lamp", "note"]) ∧
      Accounted (Provider.of (callWithin 2)) panel node "panel" state object n' t raised substitutor
        receipts := by
  obtain ⟨⟨⟨r, n'⟩, t⟩, hrun⟩ : ∃ ran,
      configureNode (Provider.of (callWithin 2)) node "panel" state = ran := ⟨_, rfl⟩
  have hleft : (configureNode (Provider.of (callWithin 2)) node "panel"
        state).1.1.toOption.join.isSome = true ∧
      (configureNode (Provider.of (callWithin 2)) node "panel" state).1.2.attributes =
        [("colour", "red")] ∧
      (configureNode (Provider.of (callWithin 2)) node "panel" state).1.2.children.map (·.name) =
        ["lamp", "note"] := by decide +kernel
  rw [hrun] at hleft
  obtain ⟨hsome, hleft⟩ := hleft
  cases r with
  | error stop => cases hsome
  | ok built =>
    cases built with
    | none => cases hsome
    | some object =>
      obtain ⟨raised, substitutor, receipts, haccounted⟩ :=
        configureNode_accounts 2 node "panel" state rfl rfl (by decide +kernel) rfl hrun
      exact ⟨object, n', t, raised, substitutor, receipts, hrun, hleft, haccounted⟩

end Workshop

end ComponentAssembly

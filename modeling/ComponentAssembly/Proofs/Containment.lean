import ComponentAssembly.Proofs.Positions
import ComponentAssembly.Proofs.Warnings

/-!
# Failed validations stop at configuration

Configuring a tree tries to construct its nodes one after the other, children before their parents
(`attempts`).  An attempt that fails by validation is reported, and its node stays without an object;
the configuration goes on.  Any other failure is the last attempt (`Contained`):

    configure n s = ((r, n'), t) → Contained … (attempts … n n.name s) s r n' t  (configure_contained)
-/

namespace ComponentAssembly

open Assemble

/-! ## Attempts -/

/-- An attempt to construct a node: where, as what, and in which state. -/
structure Attempt where
  position : List Nat
  path : String
  plugin : PluginType
  node : Node Instance
  state : State

namespace Attempt

/-- What an attempt comes to. -/
def result (given : Provider) (a : Attempt) : Except Stop Instance :=
  (construct given (a.state.declared a.plugin.pluginClass.type) (some a.node) a.path a.state).1.1

/-- An attempt is made with a node as it was given, but for its children. -/
def Of (a : Attempt) (n : Node Instance) : Prop :=
  n.plugin = some a.plugin ∧ { a.node with children := n.children } = n

/-- An attempt is made with the node of its position in a tree. -/
def In (a : Attempt) (n : Node Instance) : Prop :=
  ∃ m, n.at? a.position = some m ∧ a.Of m

/-- An attempt is made below one of some children, of which the first has a number. -/
def Among (a : Attempt) (i : Nat) (children : List (Node Instance)) : Prop :=
  ∃ k position child m, a.position = (i + k) :: position ∧ children[k]? = some child ∧
    child.at? position = some m ∧ a.Of m

def under (i : Nat) (a : Attempt) : Attempt := { a with position := i :: a.position }

/-- The attempt to construct a node itself, from a state on. -/
def root (plugin : PluginType) (n : Node Instance) (path : String) (s : State) : Attempt where
  position := []
  path := path
  plugin := plugin
  node := n
  state := (State.onJournal (Journal.debug "构建插件"
    [("plugin", plugin.name), ("class", plugin.pluginClass.className), ("path", path)]) s).2

end Attempt

/-- What the configuration of a node comes to if its construction does: without an object after a
failed validation, and no further after any other failure. -/
def settle : Except Stop Instance → Except Stop (Option Instance)
  | .ok object => .ok (some object)
  | .error (.error cause) => if cause.isValidation then .ok none else .error (.error cause)
  | .error .exhausted => .error .exhausted

/-- The report of a failed validation. -/
def failure? (path : String) : Except Stop Instance → Option Diagnostic
  | .error (.error cause) =>
    if cause.isValidation then some { kind := .validationFailure, path, message := cause.message }
    else none
  | _ => none

/-- After an attempt the configuration goes on. -/
def Attempt.Passes (given : Provider) (a : Attempt) : Prop :=
  ∃ object, settle (a.result given) = .ok object

/-- A node is tried with its children as they came out of their own attempts. -/
def ChildrenFirst (given : Provider) (tried : List Attempt) : Prop :=
  ∀ a ∈ tried, ∀ b ∈ tried, ∀ i, b.position = a.position ++ [i] →
    (a.node.children[i]?).map (·.object) = some (b.result given).toOption

def failures (given : Provider) (tried : List Attempt) : List Diagnostic :=
  tried.filterMap fun a => failure? a.path (a.result given)

@[simp]
theorem failures_append (given : Provider) (as bs : List Attempt) :
    failures given (as ++ bs) = failures given as ++ failures given bs :=
  List.filterMap_append

@[simp]
theorem failures_under (given : Provider) (as : List Attempt) (i : Nat) :
    failures given (as.map (·.under i)) = failures given as := by
  rw [failures, List.filterMap_map]
  rfl

@[simp]
theorem failures_singleton (given : Provider) (a : Attempt) :
    failures given [a] = (failure? a.path (a.result given)).toList := by
  rw [failures]
  cases hfailure : failure? a.path (a.result given) <;> simp [hfailure]

/-- The failed validations among what was reported from a journal to a later one. -/
def Journal.Fails (j k : Journal) (ds : List Diagnostic) : Prop :=
  ∃ told, j.Tells k told ∧ told.filter (·.kind = .validationFailure) = ds

section

variable (given : Provider)

mutual

/-- The attempts that the configuration of a node makes, in order. -/
def attempts (n : Node Instance) (path : String) (s : State) : List Attempt :=
  match n with
  | ⟨name, plugin, attributes, text, children, object⟩ =>
    match plugin with
    | none => []
    | some p =>
      if p.entry.defer then
        [.root p { name, plugin, attributes, text, children, object } path s]
      else
        attemptsAmong 0 children path s ++
          match configureChildren given children path s with
          | ((.ok (), children), t) =>
            [.root p { name, plugin, attributes, text, children, object } path t]
          | ((.error _, _), _) => []

/-- The attempts that the configuration of children makes, of which the first has a number. -/
def attemptsAmong (i : Nat) (children : List (Node Instance)) (path : String) (s : State) :
    List Attempt :=
  match children with
  | [] => []
  | child :: rest =>
    let childPath := path ++ "." ++ child.name
    if child.plugin.isNone then
      attemptsAmong (i + 1) rest path (reportAt .skippedElement childPath
        ("子元素 " ++ child.name ++ " 没有对应的插件类型, 已跳过") s).2
    else
      (attempts child childPath s).map (·.under i) ++
        match configureNode given child childPath s with
        | ((.ok _, _), t) => attemptsAmong (i + 1) rest path t
        | ((.error _, _), _) => []

end

/-- What there is to say of the configuration of a node at a path and the attempts that it makes. -/
structure Contained (n : Node Instance) (path : String) (tried : List Attempt) (s : State)
    (r : Except Stop (Option Instance)) (n' : Node Instance) (t : State) : Prop where
  /-- What is tried are nodes of the tree. -/
  nodes : ∀ a ∈ tried, a.In n
  /-- They are tried in the order of their positions. -/
  order : tried.map (·.position) <+: n.sites
  /-- No node is tried twice. -/
  once : (tried.map (·.position)).Nodup
  /-- A node without a plugin type is not tried. -/
  untyped : n.plugin = none → tried = [] ∧ r = .error (.error (.missingPluginType path))
  /-- The last attempt decides; only the last one is more than a failed validation, and unless it is,
  all nodes are tried. -/
  typed : n.plugin ≠ none → ∃ before last, tried = before ++ [last] ∧
    (∀ a ∈ before, a.Passes given) ∧ r = settle (last.result given) ∧
    ((∃ object, r = .ok object) → tried.map (·.position) = n.sites)
  /-- If the node itself is tried, that decides. -/
  root : ∀ a ∈ tried, a.position = [] → a.path = path ∧ r = settle (a.result given)
  /-- A failed validation is not passed on. -/
  contained : ∀ cause, r = .error (.error cause) → cause.isValidation = false
  /-- The node has the object that is returned. -/
  object : ∀ object, r = .ok object → n'.object = object
  /-- A failed child is a child without an object, no more. -/
  children : ChildrenFirst given tried
  /-- Each failed validation is reported once, in order, and no other. -/
  failures : s.journal.Fails t.journal (failures given tried)

/-- What there is to say of the configuration of children, of which the first has a number. -/
structure ContainedAmong (i : Nat) (children : List (Node Instance)) (tried : List Attempt)
    (s : State) (r : Except Stop Unit) (children' : List (Node Instance)) (t : State) : Prop where
  nodes : ∀ a ∈ tried, a.Among i children
  order : tried.map (·.position) <+: Node.sitesAmong i children
  passed : r = .ok () →
    (∀ a ∈ tried, a.Passes given) ∧ tried.map (·.position) = Node.sitesAmong i children
  stopped : ∀ stop, r = .error stop → ∃ before last, tried = before ++ [last] ∧
    (∀ a ∈ before, a.Passes given) ∧ settle (last.result given) = .error stop
  results : r = .ok () → ∀ b ∈ tried, ∀ k, b.position = [i + k] →
    (children'[k]?).map (·.object) = some (b.result given).toOption
  children : ChildrenFirst given tried
  failures : s.journal.Fails t.journal (failures given tried)

/-- What there is to say of the attempts below a node before it is tried as it is then. -/
structure Below (n m : Node Instance) (tried : List Attempt) (s t : State) : Prop where
  same : { m with children := n.children } = n
  nodes : ∀ a ∈ tried, a.In n ∧ a.position ≠ []
  sites : n.sites = tried.map (·.position) ++ [[]]
  passed : ∀ a ∈ tried, a.Passes given
  results : ∀ b ∈ tried, ∀ k, b.position = [k] →
    (m.children[k]?).map (·.object) = some (b.result given).toOption
  children : ChildrenFirst given tried
  failures : s.journal.Fails t.journal (failures given tried)

end

/-! ## The construction of a node -/

namespace Journal

variable {j k l : Journal} {ds es : List Diagnostic}

theorem Warns.fails (h : j.Warns k) : j.Fails k [] := by
  obtain ⟨ds, htells, hds⟩ := h
  exact ⟨ds, htells, by simpa using hds⟩

theorem Fails.trans (h : j.Fails k ds) (h' : k.Fails l es) : j.Fails l (ds ++ es) := by
  obtain ⟨told, htells, rfl⟩ := h
  obtain ⟨told', htells', rfl⟩ := h'
  exact ⟨told ++ told', htells.trans htells', List.filter_append told told'⟩

theorem fails_report (j : Journal) (path message : String) :
    j.Fails (Journal.report .validationFailure path message j).2
      [{ kind := .validationFailure, path, message }] :=
  ⟨_, j.tells_report .validationFailure path message, rfl⟩

end Journal

theorem settle_contained {result : Except Stop Instance} {cause : AssemblyError}
    (h : settle result = .error (.error cause)) : cause.isValidation = false := by
  match result with
  | .ok object => cases h
  | .error .exhausted => cases h
  | .error (.error cause') =>
    rw [settle] at h
    split at h
    · cases h
    · next hnot =>
      cases h
      simpa using hnot

theorem settle_object {result : Except Stop Instance} {object : Option Instance}
    (h : settle result = .ok object) : object = result.toOption := by
  match result with
  | .ok object => cases h; rfl
  | .error .exhausted => cases h
  | .error (.error cause) =>
    rw [settle] at h
    split at h
    · cases h
      rfl
    · cases h

theorem settle_none {result : Except Stop Instance} (h : settle result = .ok none) :
    ∃ cause, result = .error (.error cause) ∧ cause.isValidation = true := by
  match result with
  | .ok object => cases h
  | .error .exhausted => cases h
  | .error (.error cause) =>
    rw [settle] at h
    split at h
    · next hcause => exact ⟨cause, rfl, hcause⟩
    · cases h

theorem failure?_stopped {stop : Stop} {path : String} (h : settle (.error stop) = .error stop) :
    failure? path (.error stop) = none := by
  cases stop with
  | exhausted => rfl
  | error cause => rw [failure?, if_neg (by simp [settle_contained h])]

section

/-- How the attempt at a node ends. -/
inductive Tried (given : Provider) (plugin : PluginType) (n : Node Instance) (path : String)
    (s : State) : (Except Stop (Option Instance) × Node Instance) × State → Prop
  /-- It has its object, and what it leaves over is reported. -/
  | built {object : Instance} {left : Option (Node Instance)} {u : State}
      (hconstruct : construct given (s.declared plugin.pluginClass.type) (some n) path
        (Attempt.root plugin n path s).state = ((.ok object, left), u)) :
      Tried given plugin n path s ((.ok (some object), { left.getD n with object := some object }),
        if u.reportUnmatched && !keepsNode (left.getD n) (s.declared plugin.pluginClass.type) then
          (reportLeftovers (left.getD n) path u).2
        else u)
  /-- It fails by validation, which is reported. -/
  | invalid {cause : AssemblyError} {left : Option (Node Instance)} {u : State}
      (hcause : cause.isValidation = true)
      (hconstruct : construct given (s.declared plugin.pluginClass.type) (some n) path
        (Attempt.root plugin n path s).state = ((.error (.error cause), left), u)) :
      Tried given plugin n path s ((.ok none, { left.getD n with object := none }),
        (reportAt .validationFailure path cause.message u).2)
  /-- It fails otherwise. -/
  | stopped {stop : Stop} {left : Option (Node Instance)} {u : State}
      (hstop : settle (.error stop) = .error stop)
      (hconstruct : construct given (s.declared plugin.pluginClass.type) (some n) path
        (Attempt.root plugin n path s).state = ((.error stop, left), u)) :
      Tried given plugin n path s ((.error stop, left.getD n), u)

variable {given : Provider} {plugin : PluginType} {n : Node Instance} {path : String} {s t : State}

theorem configureSelf_tried (given : Provider) (plugin : PluginType) (n : Node Instance)
    (path : String) (s : State) :
    Tried given plugin n path s (configureSelf given plugin n path s) := by
  cases hconstruct : construct given (s.declared plugin.pluginClass.type) (some n) path
      (Attempt.root plugin n path s).state with
  | mk ended u =>
    obtain ⟨result, left⟩ := ended
    have hrun : configureSelf given plugin n path s = _ :=
      (bind_run (rfl : (get : StateM State State) s = (s, s))).trans
        ((bind_run rfl).trans (bind_run hconstruct))
    rw [hrun]
    cases result with
    | ok object =>
      have hbuilt := Tried.built hconstruct
      dsimp only
      rw [bind_run (rfl : (get : StateM State State) u = (u, u))]
      split at hbuilt
      · next hreport =>
        rw [if_pos hreport]
        exact hbuilt
      · next hreport =>
        rw [if_neg hreport]
        exact hbuilt
    | error stop =>
      cases stop with
      | exhausted => exact .stopped rfl hconstruct
      | error cause =>
        dsimp only
        by_cases hcause : cause.isValidation = true
        · rw [if_pos hcause]
          exact .invalid hcause hconstruct
        · rw [if_neg hcause]
          exact .stopped (by rw [settle, if_neg hcause]) hconstruct

/-- The construction of a node settles its configuration. -/
theorem Tried.settles (hgiven : given.Warns) {r : Except Stop (Option Instance)}
    {n' : Node Instance} (h : Tried given plugin n path s ((r, n'), t)) :
    r = settle ((Attempt.root plugin n path s).result given) ∧
      (∀ object, r = .ok object → n'.object = object) ∧
      s.journal.Fails t.journal
        (failure? path ((Attempt.root plugin n path s).result given)).toList := by
  have hwarned := hgiven.construct_warned (s.declared plugin.pluginClass.type) (some n) path
    (Attempt.root plugin n path s).state
  have hwarns : ∀ {u : State}, (Attempt.root plugin n path s).state.Warned u →
      s.journal.Fails u.journal [] := by
    intro u hu
    have hlogged : s.journal.Warns (Attempt.root plugin n path s).state.journal :=
      ((Journal.Quiet.debug _ _).still s.journal).2.2
    exact (hlogged.trans hu).fails
  have hresult : ∀ {result : Except Stop Instance} {left : Option (Node Instance)} {u : State},
      construct given (s.declared plugin.pluginClass.type) (some n) path
        (Attempt.root plugin n path s).state = ((result, left), u) →
      (Attempt.root plugin n path s).result given = result :=
    fun hconstruct => congrArg (fun ran => ran.1.1) hconstruct
  cases h with
  | @built object left u hconstruct =>
    rw [hresult hconstruct]
    rw [hconstruct] at hwarned
    have hleft : u.Warned (reportLeftovers (left.getD n) path u).2 :=
      ((Step.reportLeftovers (left.getD n) path).keeps (State.Warned.watched u).toKeeps u
        (.refl _)).1
    refine ⟨rfl, ?_, ?_⟩
    · rintro _ ⟨⟩
      rfl
    · split
      · exact hwarns (hwarned.trans hleft)
      · exact hwarns hwarned
  | @invalid cause left u hcause hconstruct =>
    rw [hresult hconstruct, settle, if_pos hcause, failure?, if_pos hcause]
    rw [hconstruct] at hwarned
    refine ⟨rfl, ?_, (hwarns hwarned).trans (u.journal.fails_report path cause.message)⟩
    rintro _ ⟨⟩
    rfl
  | @stopped stop left u hstop hconstruct =>
    rw [hresult hconstruct, hstop, failure?_stopped hstop]
    rw [hconstruct] at hwarned
    refine ⟨rfl, ?_, hwarns hwarned⟩
    rintro _ ⟨⟩

end

/-! ## How configuration goes on -/

section

variable (given : Provider) {n : Node Instance} {p : PluginType} (path : String) (s : State)
  {children children' : List (Node Instance)} {child child' : Node Instance} {t : State} {stop : Stop}

theorem configureNode_untyped (hp : n.plugin = none) :
    configureNode given n path s = ((.error (.error (.missingPluginType path)), n), s) ∧
      attempts given n path s = [] := by
  obtain ⟨name, plugin, attributes, text, children, object⟩ := n
  cases hp
  rw [configureNode, attempts]
  simp

theorem configureNode_deferred (hp : n.plugin = some p) (hdefer : p.entry.defer = true) :
    configureNode given n path s = configureSelf given p n path s ∧
      attempts given n path s = [.root p n path s] := by
  obtain ⟨name, plugin, attributes, text, children, object⟩ := n
  cases hp
  rw [configureNode, attempts]
  simp [hdefer]

variable {path s}

theorem configureNode_passed (hp : n.plugin = some p) (hdefer : p.entry.defer = false)
    (h : configureChildren given n.children path s = ((.ok (), children), t)) :
    configureNode given n path s = configureSelf given p { n with children } path t ∧
      attempts given n path s =
        attemptsAmong given 0 n.children path s ++ [.root p { n with children } path t] := by
  obtain ⟨name, plugin, attributes, text, children, object⟩ := n
  cases hp
  rw [configureNode, attempts]
  dsimp only at h
  simp [hdefer, h]

theorem configureNode_stopped (hp : n.plugin = some p) (hdefer : p.entry.defer = false)
    (h : configureChildren given n.children path s = ((.error stop, children), t)) :
    configureNode given n path s = ((.error stop, { n with children }), t) ∧
      attempts given n path s = attemptsAmong given 0 n.children path s := by
  obtain ⟨name, plugin, attributes, text, children, object⟩ := n
  cases hp
  rw [configureNode, attempts]
  dsimp only at h
  simp [hdefer, h]

theorem configureChildren_nil (i : Nat) (path : String) (s : State) :
    configureChildren given [] path s = ((.ok (), []), s) ∧ attemptsAmong given i [] path s = [] := by
  unfold configureChildren attemptsAmong
  exact ⟨rfl, rfl⟩

variable {rest rest' : List (Node Instance)} {ended : Except Stop Unit} {u : State}
  {object : Option Instance} {i : Nat}

theorem configureChildren_skipped (hchild : child.plugin = none)
    (hskip : (reportAt .skippedElement (path ++ "." ++ child.name)
      ("子元素 " ++ child.name ++ " 没有对应的插件类型, 已跳过") s).2 = t)
    (h : configureChildren given rest path t = ((ended, rest'), u)) :
    configureChildren given (child :: rest) path s = ((ended, child :: rest'), u) ∧
      attemptsAmong given i (child :: rest) path s = attemptsAmong given (i + 1) rest path t := by
  rw [configureChildren, attemptsAmong]
  simp [hchild, hskip, h]

theorem configureChildren_stopped (rest : List (Node Instance)) (i : Nat) (hchild : child.plugin ≠ none)
    (h : configureNode given child (path ++ "." ++ child.name) s = ((.error stop, child'), t)) :
    configureChildren given (child :: rest) path s = ((.error stop, child' :: rest), t) ∧
      attemptsAmong given i (child :: rest) path s =
        (attempts given child (path ++ "." ++ child.name) s).map (·.under i) := by
  rw [configureChildren, attemptsAmong]
  simp [hchild, h]

theorem configureChildren_passed (hchild : child.plugin ≠ none)
    (h : configureNode given child (path ++ "." ++ child.name) s = ((.ok object, child'), t))
    (hrest : configureChildren given rest path t = ((ended, rest'), u)) :
    configureChildren given (child :: rest) path s =
        ((ended, { child' with object } :: rest'), u) ∧
      attemptsAmong given i (child :: rest) path s =
        (attempts given child (path ++ "." ++ child.name) s).map (·.under i) ++
          attemptsAmong given (i + 1) rest path t := by
  rw [configureChildren, attemptsAmong]
  simp [hchild, h, hrest]

end

/-- What holds of a node `P` and of children `Q`, the first of which has a number, when they are
configured with some attempts, if it holds in each of the cases. -/
structure ConfigurationCases (given : Provider)
    (P : Node Instance → String → State → List Attempt →
      (Except Stop (Option Instance) × Node Instance) × State → Prop)
    (Q : Nat → List (Node Instance) → String → State → List Attempt →
      (Except Stop Unit × List (Node Instance)) × State → Prop) : Prop where
  /-- A node without a plugin type. -/
  untyped (n : Node Instance) (path : String) (s : State) (hp : n.plugin = none) :
    P n path s [] ((.error (.error (.missingPluginType path)), n), s)
  /-- A node that is tried with its children as they are. -/
  deferred (n : Node Instance) (p : PluginType) (path : String) (s : State) (hp : n.plugin = some p)
    (hdefer : p.entry.defer = true) :
    P n path s [.root p n path s] (configureSelf given p n path s)
  /-- A node that is tried with the children that came out of their own attempts. -/
  passed (n : Node Instance) (p : PluginType) (path : String) (s : State) (hp : n.plugin = some p)
    (hdefer : p.entry.defer = false) {as : List Attempt} {children : List (Node Instance)}
    {t : State} (h : Q 0 n.children path s as ((.ok (), children), t)) :
    P n path s (as ++ [.root p { n with children } path t])
      (configureSelf given p { n with children } path t)
  /-- A node that is not tried, since its children end the configuration. -/
  stopped (n : Node Instance) (p : PluginType) (path : String) (s : State) (hp : n.plugin = some p)
    (hdefer : p.entry.defer = false) {as : List Attempt} {children : List (Node Instance)}
    {stop : Stop} {t : State} (h : Q 0 n.children path s as ((.error stop, children), t)) :
    P n path s as ((.error stop, { n with children }), t)
  nil (i : Nat) (path : String) (s : State) : Q i [] path s [] ((.ok (), []), s)
  /-- A child without a plugin type. -/
  skipped (i : Nat) (child : Node Instance) (rest : List (Node Instance)) (path : String) (s : State)
    (hchild : child.plugin = none) {as : List Attempt} {ended : Except Stop Unit}
    {rest' : List (Node Instance)} {u : State}
    (h : Q (i + 1) rest path (reportAt .skippedElement (path ++ "." ++ child.name)
      ("子元素 " ++ child.name ++ " 没有对应的插件类型, 已跳过") s).2 as ((ended, rest'), u)) :
    Q i (child :: rest) path s as ((ended, child :: rest'), u)
  /-- A child that ends the configuration. -/
  stops (i : Nat) (child : Node Instance) (rest : List (Node Instance)) (path : String) (s : State)
    (hchild : child.plugin ≠ none) {as : List Attempt} {stop : Stop} {child' : Node Instance}
    {t : State} (h : P child (path ++ "." ++ child.name) s as ((.error stop, child'), t)) :
    Q i (child :: rest) path s (as.map (·.under i)) ((.error stop, child' :: rest), t)
  /-- A child that is configured, with or without an object. -/
  cons (i : Nat) (child : Node Instance) (rest : List (Node Instance)) (path : String) (s : State)
    (hchild : child.plugin ≠ none) {as bs : List Attempt} {object : Option Instance}
    {child' : Node Instance} {t u : State} {ended : Except Stop Unit} {rest' : List (Node Instance)}
    (h : P child (path ++ "." ++ child.name) s as ((.ok object, child'), t))
    (hrest : Q (i + 1) rest path t bs ((ended, rest'), u)) :
    Q i (child :: rest) path s (as.map (·.under i) ++ bs) ((ended, { child' with object } :: rest'), u)

namespace ConfigurationCases

variable {given : Provider}
  {P : Node Instance → String → State → List Attempt →
    (Except Stop (Option Instance) × Node Instance) × State → Prop}
  {Q : Nat → List (Node Instance) → String → State → List Attempt →
    (Except Stop Unit × List (Node Instance)) × State → Prop}

mutual

/-- **Induction** over the configuration of a node and its children. -/
theorem node (h : ConfigurationCases given P Q) (n : Node Instance) (path : String) (s : State) :
    P n path s (attempts given n path s) (configureNode given n path s) := by
  obtain ⟨name, plugin, attributes, text, children, object⟩ := n
  have hchildren := node_children h children 0 path s
  cases plugin with
  | none =>
    obtain ⟨hrun, hattempts⟩ := configureNode_untyped given path s
      (rfl : (⟨name, none, attributes, text, children, object⟩ : Node Instance).plugin = none)
    rw [hrun, hattempts]
    exact h.untyped _ path s rfl
  | some p =>
    generalize hn : (⟨name, some p, attributes, text, children, object⟩ : Node Instance) = n
    have hp : n.plugin = some p := by rw [← hn]
    have hbelow : children = n.children := by rw [← hn]
    rw [hbelow] at hchildren
    cases hdefer : p.entry.defer with
    | true =>
      obtain ⟨hrun, hattempts⟩ := configureNode_deferred given path s hp hdefer
      rw [hrun, hattempts]
      exact h.deferred n p path s hp hdefer
    | false =>
      cases hrun : configureChildren given n.children path s with
      | mk ended t =>
        obtain ⟨r, children'⟩ := ended
        rw [hrun] at hchildren
        cases r with
        | error stop =>
          obtain ⟨hstopped, hattempts⟩ := configureNode_stopped given hp hdefer hrun
          rw [hstopped, hattempts]
          exact h.stopped n p path s hp hdefer hchildren
        | ok done =>
          obtain ⟨hpassed, hattempts⟩ := configureNode_passed given hp hdefer hrun
          rw [hpassed, hattempts]
          exact h.passed n p path s hp hdefer hchildren

theorem node_children (h : ConfigurationCases given P Q) (children : List (Node Instance)) (i : Nat)
    (path : String) (s : State) : Q i children path s (attemptsAmong given i children path s)
      (configureChildren given children path s) := by
  match children with
  | [] =>
    obtain ⟨hrun, hattempts⟩ := configureChildren_nil given i path s
    rw [hrun, hattempts]
    exact h.nil i path s
  | child :: rest =>
    have hchild := node h child (path ++ "." ++ child.name) s
    cases hplugin : child.plugin with
    | none =>
      have hrest := node_children h rest (i + 1) path
        (reportAt .skippedElement (path ++ "." ++ child.name)
          ("子元素 " ++ child.name ++ " 没有对应的插件类型, 已跳过") s).2
      obtain ⟨hrun, hattempts⟩ := configureChildren_skipped given (i := i) hplugin rfl
        (rfl : configureChildren given rest path _ = _)
      rw [hrun, hattempts]
      exact h.skipped i child rest path s hplugin hrest
    | some p =>
      have htyped : child.plugin ≠ none := by rw [hplugin]; simp
      cases hrun : configureNode given child (path ++ "." ++ child.name) s with
      | mk ended t =>
        obtain ⟨r, child'⟩ := ended
        rw [hrun] at hchild
        cases r with
        | error stop =>
          obtain ⟨hstopped, hattempts⟩ := configureChildren_stopped given rest i htyped hrun
          rw [hstopped, hattempts]
          exact h.stops i child rest path s htyped hchild
        | ok object =>
          have hrest := node_children h rest (i + 1) path t
          obtain ⟨hpassed, hattempts⟩ := configureChildren_passed given (i := i) htyped hrun
            (rfl : configureChildren given rest path t = _)
          rw [hpassed, hattempts]
          exact h.cons i child rest path s htyped hchild hrest

end

end ConfigurationCases

/-! ## Children -/

section

variable {given : Provider} {n n' child child' : Node Instance}
  {children rest rest' : List (Node Instance)} {path : String} {s t u : State} {i : Nat}
  {object : Option Instance} {stop : Stop} {r : Except Stop (Option Instance)}
  {ended : Except Stop Unit} {as bs : List Attempt}

theorem Attempt.positions_under (as : List Attempt) (i : Nat) :
    (as.map (·.under i)).map (·.position) = (as.map (·.position)).map (i :: ·) := by
  rw [List.map_map, List.map_map]
  rfl

namespace Contained

theorem nodes_under (h : Contained given child path as s r child' t) (i : Nat)
    (rest : List (Node Instance)) : ∀ a ∈ as.map (·.under i), a.Among i (child :: rest) := by
  rintro _ hunder
  obtain ⟨a, ha, rfl⟩ := List.mem_map.mp hunder
  obtain ⟨m, hm, hof⟩ := h.nodes a ha
  exact ⟨0, a.position, child, m, rfl, rfl, hm, hof⟩

theorem children_under (h : Contained given child path as s r child' t) (i : Nat) :
    ChildrenFirst given (as.map (·.under i)) := by
  intro _ hunder _ hunder' k hk
  obtain ⟨a, ha, rfl⟩ := List.mem_map.mp hunder
  obtain ⟨b, hb, rfl⟩ := List.mem_map.mp hunder'
  exact h.children a ha b hb k (List.cons.inj hk).2

theorem passed_under (h : Contained given child path as s (.ok object) child' t)
    (htyped : child.plugin ≠ none) (i : Nat) : (∀ a ∈ as.map (·.under i), a.Passes given) ∧
      (as.map (·.under i)).map (·.position) = child.sites.map (i :: ·) := by
  obtain ⟨before, last, rfl, hbefore, hlast, hsites⟩ := h.typed htyped
  constructor
  · intro _ hunder
    obtain ⟨a, ha, rfl⟩ := List.mem_map.mp hunder
    rcases List.mem_append.mp ha with ha | ha
    · exact hbefore a ha
    · cases List.mem_singleton.mp ha
      exact ⟨object, hlast.symm⟩
  · rw [Attempt.positions_under, hsites ⟨object, rfl⟩]

end Contained

namespace ContainedAmong

theorem nodes_later (h : ContainedAmong given (i + 1) rest as s ended rest' t)
    (child : Node Instance) : ∀ a ∈ as, a.Among i (child :: rest) := by
  intro a ha
  obtain ⟨k, position, c, m, hposition, hk, hm, hof⟩ := h.nodes a ha
  refine ⟨k + 1, position, c, m, ?_, hk, hm, hof⟩
  rw [hposition, Nat.add_right_comm, Nat.add_assoc]

theorem results_later (h : ContainedAmong given (i + 1) rest as s (.ok ()) rest' t)
    (child : Node Instance) : ∀ b ∈ as, ∀ k, b.position = [i + k] →
      ((child :: rest')[k]?).map (·.object) = some (b.result given).toOption := by
  intro b hb k hk
  obtain ⟨l, position, -, -, hposition, -⟩ := h.nodes b hb
  have hl : i + 1 + l = i + k := (List.cons.inj (hposition.symm.trans hk)).1
  obtain rfl : k = l + 1 := by omega
  refine h.results rfl b hb l ?_
  rw [hk, Nat.add_right_comm, Nat.add_assoc]

/-- Positions below different children do not lead to each other. -/
theorem apart (h : ContainedAmong given (i + 1) rest bs s ended rest' t) (as : List Attempt) :
    ∀ a ∈ as.map (·.under i), ∀ b ∈ bs, ∀ k,
      b.position ≠ a.position ++ [k] ∧ a.position ≠ b.position ++ [k] := by
  intro _ hunder b hb k
  obtain ⟨a, -, rfl⟩ := List.mem_map.mp hunder
  obtain ⟨l, position, -, -, hposition, -⟩ := h.nodes b hb
  constructor <;> intro heq <;> rw [hposition] at heq
  · have := (List.cons.inj heq).1
    omega
  · have := (List.cons.inj heq).1
    omega

theorem nil (i : Nat) (s : State) : ContainedAmong given i [] [] s (.ok ()) [] s where
  nodes := by simp
  order := List.nil_prefix
  passed := by simp [Node.sitesAmong]
  stopped := by rintro stop ⟨⟩
  results := by simp
  children := by simp [ChildrenFirst]
  failures := (Journal.Warns.refl s.journal).fails

/-- A first child that is skipped. -/
theorem skipped (hchild : child.plugin = none) (hwarns : s.journal.Warns t.journal)
    (h : ContainedAmong given (i + 1) rest as t ended rest' u) :
    ContainedAmong given i (child :: rest) as s ended (child :: rest') u := by
  have hsites : Node.sitesAmong i (child :: rest) = Node.sitesAmong (i + 1) rest := by
    rw [Node.sitesAmong_cons, Node.sites_untyped hchild]
    rfl
  constructor
  case nodes =>
    exact h.nodes_later child
  case order =>
    rw [hsites]
    exact h.order
  case passed =>
    rw [hsites]
    exact h.passed
  case stopped =>
    exact h.stopped
  case results =>
    rintro rfl
    exact h.results_later child
  case children =>
    exact h.children
  case failures =>
    exact hwarns.fails.trans h.failures

/-- A first child that ends the configuration. -/
theorem stops (htyped : child.plugin ≠ none)
    (hchild : Contained given child path as s (.error stop) child' t) :
    ContainedAmong given i (child :: rest) (as.map (·.under i)) s (.error stop) (child' :: rest)
      t := by
  constructor
  case nodes =>
    exact hchild.nodes_under i rest
  case order =>
    rw [Attempt.positions_under, Node.sitesAmong_cons]
    exact (hchild.order.map _).trans (List.prefix_append _ _)
  case passed =>
    rintro ⟨⟩
  case stopped =>
    rintro _ ⟨⟩
    obtain ⟨before, last, rfl, hbefore, hlast, -⟩ := hchild.typed htyped
    refine ⟨before.map (·.under i), last.under i, List.map_append, ?_, hlast.symm⟩
    intro _ hunder
    obtain ⟨a, ha, rfl⟩ := List.mem_map.mp hunder
    exact hbefore a ha
  case results =>
    rintro ⟨⟩
  case children =>
    exact hchild.children_under i
  case failures =>
    simpa using hchild.failures

/-- A first child that is configured, with or without an object. -/
theorem cons (htyped : child.plugin ≠ none)
    (hchild : Contained given child path as s (.ok object) child' t)
    (h : ContainedAmong given (i + 1) rest bs t ended rest' u) :
    ContainedAmong given i (child :: rest) (as.map (·.under i) ++ bs) s ended
      ({ child' with object } :: rest') u := by
  obtain ⟨hsettled, hfirst⟩ := hchild.passed_under htyped i
  constructor
  case nodes =>
    intro a ha
    rcases List.mem_append.mp ha with ha | ha
    · exact hchild.nodes_under i rest a ha
    · exact h.nodes_later child a ha
  case order =>
    rw [List.map_append, hfirst, Node.sitesAmong_cons]
    exact (List.prefix_append_right_inj _).mpr h.order
  case passed =>
    intro hok
    obtain ⟨hrest, hpositions⟩ := h.passed hok
    refine ⟨fun a ha => ?_, ?_⟩
    · rcases List.mem_append.mp ha with ha | ha
      · exact hsettled a ha
      · exact hrest a ha
    · rw [List.map_append, hfirst, hpositions, Node.sitesAmong_cons]
  case stopped =>
    intro stop hstop
    obtain ⟨before, last, rfl, hbefore, hlast⟩ := h.stopped stop hstop
    refine ⟨as.map (·.under i) ++ before, last, (List.append_assoc _ _ _).symm, fun a ha => ?_,
      hlast⟩
    rcases List.mem_append.mp ha with ha | ha
    · exact hsettled a ha
    · exact hbefore a ha
  case results =>
    rintro rfl b hb k hk
    rcases List.mem_append.mp hb with hb | hb
    · obtain ⟨a, ha, rfl⟩ := List.mem_map.mp hb
      obtain ⟨hnumber, hposition⟩ := List.cons.inj (show i :: a.position = [i + k] from hk)
      obtain rfl : k = 0 := by omega
      exact congrArg some (settle_object (hchild.root a ha hposition).2.symm)
    · exact h.results_later _ b hb k hk
  case children =>
    intro a ha b hb k hk
    rcases List.mem_append.mp ha with ha | ha <;> rcases List.mem_append.mp hb with hb | hb
    · exact hchild.children_under i a ha b hb k hk
    · exact absurd hk (h.apart as a ha b hb k).1
    · exact absurd hk (h.apart as b hb a ha k).2
    · exact h.children a ha b hb k hk
  case failures =>
    simpa using hchild.failures.trans h.failures

end ContainedAmong

end

/-! ## Nodes -/

section

variable {given : Provider} {n : Node Instance} {p : PluginType} {children : List (Node Instance)}
  {path : String} {s t u : State} {stop : Stop} {as : List Attempt}

namespace ContainedAmong

theorem ne_root (h : ContainedAmong given 0 n.children as s ended children t) :
    ∀ a ∈ as, a.position ≠ [] := by
  intro a ha hroot
  obtain ⟨k, position, -, -, hposition, -⟩ := h.nodes a ha
  rw [hroot] at hposition
  cases hposition

theorem nodes_below (h : ContainedAmong given 0 n.children as s ended children t) :
    ∀ a ∈ as, a.In n := by
  intro a ha
  obtain ⟨k, position, child, m, hposition, hk, hm, hof⟩ := h.nodes a ha
  refine ⟨m, ?_, hof⟩
  rw [hposition, Node.at?, Nat.zero_add, hk]
  exact hm

/-- A node is tried with its children as they were left. -/
theorem below (h : ContainedAmong given 0 n.children as s (.ok ()) children t)
    (hp : n.plugin = some p) (hdefer : p.entry.defer = false) :
    Below given n { n with children } as s t := by
  obtain ⟨hpassed, hpositions⟩ := h.passed rfl
  constructor
  case same =>
    cases n
    rfl
  case nodes =>
    exact fun a ha => ⟨h.nodes_below a ha, h.ne_root a ha⟩
  case sites =>
    rw [Node.sites_typed hp, if_neg (by simp [hdefer]), hpositions]
  case passed =>
    exact hpassed
  case results =>
    simpa using h.results rfl
  case children =>
    exact h.children
  case failures =>
    exact h.failures

end ContainedAmong

/-- A node with deferred children is tried as it is. -/
theorem Below.of_deferred (hp : n.plugin = some p) (hdefer : p.entry.defer = true) (s : State) :
    Below given n n [] s s where
  same := by cases n; rfl
  nodes := by simp
  sites := by rw [Node.sites_typed hp, if_pos hdefer]; rfl
  passed := by simp
  results := by simp
  children := by simp [ChildrenFirst]
  failures := (Journal.Warns.refl s.journal).fails

namespace Contained

theorem of_untyped (hp : n.plugin = none) :
    Contained given n path [] s (.error (.error (.missingPluginType path))) n s where
  nodes := by simp
  order := List.nil_prefix
  once := List.nodup_nil
  untyped _ := ⟨rfl, rfl⟩
  typed hne := absurd hp hne
  root := by simp
  contained := by rintro cause ⟨⟩; rfl
  object := by rintro object ⟨⟩
  children := by simp [ChildrenFirst]
  failures := (Journal.Warns.refl s.journal).fails

/-- A node that is not tried, since a failure below it ends the configuration. -/
theorem of_stopped (hp : n.plugin = some p) (hdefer : p.entry.defer = false)
    (h : ContainedAmong given 0 n.children as s (.error stop) children t) :
    Contained given n path as s (.error stop) { n with children } t := by
  obtain ⟨before, last, hall, hbefore, hlast⟩ := h.stopped stop rfl
  have horder : as.map (·.position) <+: n.sites := by
    rw [Node.sites_typed hp, if_neg (by simp [hdefer])]
    exact h.order.trans (List.prefix_append _ _)
  constructor
  case nodes =>
    exact h.nodes_below
  case order =>
    exact horder
  case once =>
    exact n.nodup_sites.sublist horder.sublist
  case untyped =>
    intro hnone
    rw [hp] at hnone
    cases hnone
  case typed =>
    refine fun _ => ⟨before, last, hall, hbefore, hlast.symm, ?_⟩
    rintro ⟨object, ⟨⟩⟩
  case root =>
    exact fun a ha hroot => absurd hroot (h.ne_root a ha)
  case contained =>
    rintro cause ⟨⟩
    exact settle_contained hlast
  case object =>
    rintro object ⟨⟩
  case children =>
    exact h.children
  case failures =>
    exact h.failures

/-- A node that is tried, after what there is to try below it. -/
theorem of_self (hp : n.plugin = some p) {m n' : Node Instance}
    {r : Except Stop (Option Instance)} (hbelow : Below given n m as s t)
    (hresult : r = settle ((Attempt.root p m path t).result given))
    (hobject : ∀ object, r = .ok object → n'.object = object)
    (hfailed : t.journal.Fails u.journal
      (failure? path ((Attempt.root p m path t).result given)).toList) :
    Contained given n path (as ++ [.root p m path t]) s r n' u := by
  have hpositions : (as ++ [Attempt.root p m path t]).map (·.position) = n.sites := by
    rw [List.map_append, hbelow.sites]
    rfl
  constructor
  case nodes =>
    intro a ha
    rcases List.mem_append.mp ha with ha | ha
    · exact (hbelow.nodes a ha).1
    · cases List.mem_singleton.mp ha
      exact ⟨n, rfl, hp, hbelow.same⟩
  case order =>
    exact hpositions ▸ List.prefix_refl _
  case once =>
    exact hpositions ▸ n.nodup_sites
  case untyped =>
    intro hnone
    rw [hp] at hnone
    cases hnone
  case typed =>
    exact fun _ => ⟨as, _, rfl, hbelow.passed, hresult, fun _ => hpositions⟩
  case root =>
    intro a ha hroot
    rcases List.mem_append.mp ha with ha | ha
    · exact absurd hroot (hbelow.nodes a ha).2
    · cases List.mem_singleton.mp ha
      exact ⟨rfl, hresult⟩
  case contained =>
    rintro cause rfl
    exact settle_contained hresult.symm
  case object =>
    exact hobject
  case children =>
    intro a ha b hb k hk
    have hb : b ∈ as := by
      rcases List.mem_append.mp hb with hb | hb
      · exact hb
      · cases List.mem_singleton.mp hb
        have := congrArg List.length hk
        simp [Attempt.root] at this
    rcases List.mem_append.mp ha with ha | ha
    · exact hbelow.children a ha b hb k hk
    · cases List.mem_singleton.mp ha
      exact hbelow.results b hb k hk
  case failures =>
    rw [failures_append, failures_singleton]
    exact hbelow.failures.trans hfailed

/-- A node that stays without an object has its failed validation reported. -/
theorem reported {n' : Node Instance} (h : Contained given n path as s (.ok none) n' t) :
    ∃ message, { kind := .validationFailure, path, message } ∈
      ComponentAssembly.failures given as := by
  cases hp : n.plugin with
  | none =>
    obtain ⟨-, hresult⟩ := h.untyped hp
    cases hresult
  | some p =>
    obtain ⟨-, -, -, -, -, hsites⟩ := h.typed (by simp [hp])
    have hroot : [] ∈ as.map (·.position) := by
      rw [hsites ⟨none, rfl⟩, Node.sites_typed hp]
      split <;> simp
    obtain ⟨a, ha, hposition⟩ := List.mem_map.mp hroot
    obtain ⟨rfl, hsettled⟩ := h.root a ha hposition
    obtain ⟨cause, hresult, hcause⟩ := settle_none hsettled.symm
    refine ⟨cause.message, List.mem_filterMap.mpr ⟨a, ha, ?_⟩⟩
    rw [hresult, failure?, if_pos hcause]

end Contained

end

/-! ## Whole trees -/

theorem configuration_contained {given : Provider} (hgiven : given.Warns) : ConfigurationCases given
    (fun n path s as ended => Contained given n path as s ended.1.1 ended.1.2 ended.2)
    (fun i children _ s as ended =>
      ContainedAmong given i children as s ended.1.1 ended.1.2 ended.2) where
  untyped _ _ _ hp := .of_untyped hp
  deferred n p path s hp hdefer := by
    obtain ⟨hresult, hobject, hfailed⟩ := (configureSelf_tried given p n path s).settles hgiven
    exact .of_self hp (.of_deferred hp hdefer s) hresult hobject hfailed
  passed n p path s hp hdefer as children t h := by
    obtain ⟨hresult, hobject, hfailed⟩ :=
      (configureSelf_tried given p { n with children } path t).settles hgiven
    exact .of_self hp (h.below hp hdefer) hresult hobject hfailed
  stopped _ _ _ _ hp hdefer _ _ _ _ h := .of_stopped hp hdefer h
  nil i _ s := .nil i s
  skipped _ _ _ _ s hchild _ _ _ _ h :=
    .skipped hchild (s.journal.warns_report (by decide) _ _) h
  stops _ _ _ _ _ hchild _ _ _ _ h := .stops hchild h
  cons _ _ _ _ _ hchild _ _ _ _ _ _ _ _ h hrest := .cons hchild h hrest

theorem configureNode_contained {given : Provider} (hgiven : given.Warns) (n : Node Instance)
    (path : String) (s : State) :
    Contained given n path (attempts given n path s) s (configureNode given n path s).1.1
      (configureNode given n path s).1.2 (configureNode given n path s).2 :=
  (configuration_contained hgiven).node n path s

/-- **Failed validations stop at configuration.**  In whatever state and for whatever tree, a
configuration returns no failed validation.  Each node is tried at most once, children before their
parents; a failed validation is reported and leaves its node without an object, and any other failure
is the last attempt. -/
theorem configure_contained (n : Node Instance) (s : State) :
    Contained (Provider.of (callWithin (s.knownKeys.length + 2))) n n.name
      (attempts (Provider.of (callWithin (s.knownKeys.length + 2))) n n.name s) s
      (configure n s).1.1 (configure n s).1.2 (configure n s).2 :=
  configureNode_contained (Provider.warns_of_callWithin _) n n.name s

end ComponentAssembly

import ComponentAssembly.Proofs.Moves

/-!
# Configuration goes through a tree in post-order

Each node that a configuration comes to has its turn (`Turn`): a child without a plugin type is
skipped, any other node is tried.  A configuration is one turn after the other, each with what is
reported in it (`Runs`), and nothing else.  The turns are in post-order (`configure_traverses`):

    returns     all nodes that the configuration is to reach are tried, and no others
    fails       the last attempt fails; those before it in post-order were tried, and none after it
    not tried   the node is left as it is, or gone as a whole (`Node.Becomes`)
-/

namespace ComponentAssembly

open Assemble

/-! ## Turns -/

/-- The turn of a node: it is skipped, or tried. -/
inductive Turn
  | skip (position : List Nat) (path : String) (child : Node Instance)
  | attempt (a : Attempt)

namespace Turn

def position : Turn → List Nat
  | skip position _ _ => position
  | attempt a => a.position

def path : Turn → String
  | skip _ path _ => path
  | attempt a => a.path

def attempt? : Turn → Option Attempt
  | skip _ _ _ => none
  | attempt a => some a

def under (i : Nat) : Turn → Turn
  | skip position path child => skip (i :: position) path child
  | attempt a => attempt (a.under i)

/-- Nodes without a plugin type are skipped, others tried: as they were given, but for their
children. -/
def Of (m : Node Instance) : Turn → Prop
  | skip _ _ child => child = m ∧ m.plugin = none
  | attempt a => a.Of m

/-- A turn comes to the node of its position, under a path with the names on the way there. -/
def Meets (turn : Turn) (n : Node Instance) (path : String) : Prop :=
  ∃ m names, n.at? turn.position = some m ∧ n.names turn.position = some (n.name :: names) ∧
    turn.path = ".".intercalate (path :: names) ∧ turn.Of m

/-- What happens in a turn, and what is reported. -/
inductive Goes (given : Provider) : Turn → List Diagnostic → State → State → Prop
  | skipped (position : List Nat) (path : String) (child : Node Instance) (s : State) :
      Goes given (.skip position path child)
        [{ kind := .skippedElement, path,
           message := "子元素 " ++ child.name ++ " 没有对应的插件类型, 已跳过" }] s
        (reportAt .skippedElement path ("子元素 " ++ child.name ++ " 没有对应的插件类型, 已跳过") s).2
  /-- Of failed validations at most its own is reported. -/
  | tried (position : List Nat) (plugin : PluginType) (n : Node Instance) (path : String) (s : State)
      {told : List Diagnostic}
      (htold : s.journal.Tells (configureSelf given plugin n path s).2.journal told)
      (hfailure : told.filter (·.kind = .validationFailure) =
        (failure? path ((Attempt.root plugin n path s).result given)).toList) :
      Goes given (.attempt { Attempt.root plugin n path s with position }) told s
        (configureSelf given plugin n path s).2

end Turn

/-- Turns follow one another from a state to a later one. -/
inductive Runs (given : Provider) : List Turn → List (List Diagnostic) → State → State → Prop
  | nil (s : State) : Runs given [] [] s s
  | cons {turn : Turn} {turns : List Turn} {told : List Diagnostic} {tolds : List (List Diagnostic)}
      {s t u : State} (hfirst : turn.Goes given told s t) (hrest : Runs given turns tolds t u) :
      Runs given (turn :: turns) (told :: tolds) s u

/-- The turns of a run with some attempts. -/
structure Turns (given : Provider) (as : List Attempt) (s t : State) (turns : List Turn)
    (tolds : List (List Diagnostic)) : Prop where
  attempts : turns.filterMap Turn.attempt? = as
  runs : Runs given turns tolds s t
  order : turns.Pairwise fun turn later => Precedes turn.position later.position

section

variable {given : Provider} {turn : Turn} {turns turns' : List Turn} {told : List Diagnostic}
  {tolds tolds' : List (List Diagnostic)} {s t u : State} {as bs : List Attempt}
  {n child : Node Instance} {path : String} {i : Nat}

namespace Turn

@[simp]
theorem position_under (i : Nat) (turn : Turn) : (turn.under i).position = i :: turn.position := by
  cases turn <;> rfl

theorem attempt?_under (i : Nat) (turn : Turn) :
    (turn.under i).attempt? = turn.attempt?.map (·.under i) := by
  cases turn <;> rfl

theorem Goes.under (h : turn.Goes given told s t) (i : Nat) : (turn.under i).Goes given told s t := by
  cases h with
  | skipped position path child s => exact .skipped (i :: position) path child s
  | tried position plugin n path s htold hfailure =>
    exact .tried (i :: position) plugin n path s htold hfailure

theorem Goes.tells (h : turn.Goes given told s t) : s.journal.Tells t.journal told := by
  cases h with
  | skipped _ path _ s => exact s.journal.tells_report .skippedElement path _
  | tried _ _ _ _ _ htold _ => exact htold

/-- The turn of the root of a tree. -/
theorem Meets.root (hposition : turn.position = []) (hpath : turn.path = path) (hof : turn.Of n) :
    turn.Meets n path := by
  refine ⟨n, [], ?_, ?_, ?_, hof⟩
  · rw [hposition, Node.at?]
  · rw [hposition, Node.names]
  · rw [hpath, String.intercalate_singleton]

/-- A turn below a child is one below its parent. -/
theorem Meets.below (hchild : n.children[i]? = some child)
    (h : turn.Meets child (path ++ "." ++ child.name)) : (turn.under i).Meets n path := by
  obtain ⟨m, names, hm, hnames, hpath, hof⟩ := h
  refine ⟨m, child.name :: names, ?_, ?_, ?_, ?_⟩
  · rw [position_under, Node.at?_cons n i _ hchild, hm]
  · rw [position_under, Node.names, hchild, Option.bind_some, hnames, Option.map_some]
  · calc (turn.under i).path = turn.path := by cases turn <;> rfl
      _ = ".".intercalate ((path ++ "." ++ child.name) :: names) := hpath
      _ = ".".intercalate (path :: child.name :: names) := by
        rw [String.intercalate_cons_append, String.intercalate_cons_cons]
  · cases turn <;> exact hof

end Turn

namespace Runs

theorem append (h : Runs given turns tolds s t) (h' : Runs given turns' tolds' t u) :
    Runs given (turns ++ turns') (tolds ++ tolds') s u := by
  induction h with
  | nil s => exact h'
  | cons hfirst _ ih => exact .cons hfirst (ih h')

theorem under (h : Runs given turns tolds s t) (i : Nat) :
    Runs given (turns.map (·.under i)) tolds s t := by
  induction h with
  | nil s => exact .nil s
  | cons hfirst _ ih => exact .cons (hfirst.under i) ih

/-- What is reported is what is reported in the turns, in their order. -/
theorem tells (h : Runs given turns tolds s t) : s.journal.Tells t.journal tolds.flatten := by
  induction h with
  | nil s => exact .refl _
  | cons hfirst _ ih => exact hfirst.tells.trans ih

end Runs

namespace Turns

theorem nil (s : State) : Turns given [] s s [] [] where
  attempts := rfl
  runs := .nil s
  order := .nil

theorem single (h : turn.Goes given told s t) :
    Turns given turn.attempt?.toList s t [turn] [told] where
  attempts := by cases turn <;> rfl
  runs := .cons h (.nil t)
  order := List.pairwise_singleton _ _

theorem append (h : Turns given as s t turns tolds) (h' : Turns given bs t u turns' tolds')
    (horder : ∀ turn ∈ turns, ∀ other ∈ turns', Precedes turn.position other.position) :
    Turns given (as ++ bs) s u (turns ++ turns') (tolds ++ tolds') where
  attempts := by rw [List.filterMap_append, h.attempts, h'.attempts]
  runs := h.runs.append h'.runs
  order := List.pairwise_append.mpr ⟨h.order, h'.order, horder⟩

theorem under (h : Turns given as s t turns tolds) (i : Nat) :
    Turns given (as.map (·.under i)) s t (turns.map (·.under i)) tolds where
  attempts := by
    rw [← h.attempts, List.filterMap_map, List.map_filterMap]
    exact congrArg (turns.filterMap ·) (funext (Turn.attempt?_under i))
  runs := h.runs.under i
  order := List.pairwise_map.mpr (h.order.imp fun hprecedes => by simpa using hprecedes.under i)

end Turns

/-! ## Configuration -/

/-- A turn below one of some children, of which the first has a number. -/
def Turn.Among (turn : Turn) (i : Nat) (children : List (Node Instance)) (path : String) : Prop :=
  ∃ k child inner, turn = Turn.under (i + k) inner ∧ children[k]? = some child ∧
    inner.Meets child (path ++ "." ++ child.name)

namespace Turn.Among

variable {children rest : List (Node Instance)}

theorem first (rest : List (Node Instance)) (h : turn.Meets child (path ++ "." ++ child.name)) :
    (turn.under i).Among i (child :: rest) path :=
  ⟨0, child, turn, rfl, rfl, h⟩

theorem later (child : Node Instance) (h : turn.Among (i + 1) rest path) :
    turn.Among i (child :: rest) path := by
  obtain ⟨k, other, inner, rfl, hother, hmeets⟩ := h
  exact ⟨k + 1, other, inner, by rw [Nat.add_right_comm, Nat.add_assoc], hother, hmeets⟩

/-- A turn below one child comes before those below later ones. -/
theorem precedes (h : turn.Among (i + 1) rest path) (p : List Nat) :
    Precedes (i :: p) turn.position := by
  obtain ⟨k, other, inner, rfl, -, -⟩ := h
  rw [Turn.position_under]
  exact .left (by omega) p _

theorem meets (h : turn.Among 0 n.children path) : turn.Meets n path := by
  obtain ⟨k, child, inner, rfl, hchild, hmeets⟩ := h
  rw [Nat.zero_add]
  exact .below hchild hmeets

theorem precedes_root (h : turn.Among i children path) : Precedes turn.position [] := by
  obtain ⟨k, child, inner, rfl, -, -⟩ := h
  rw [Turn.position_under]
  exact .inside _ _

end Turn.Among

theorem configureSelf_goes (hgiven : given.Warns) (plugin : PluginType) (n : Node Instance)
    (path : String) (s : State) : ∃ told, (Turn.attempt (.root plugin n path s)).Goes given told s
      (configureSelf given plugin n path s).2 := by
  obtain ⟨-, -, told, htold, hfailure⟩ := (configureSelf_tried given plugin n path s).settles hgiven
  exact ⟨told, .tried [] plugin n path s htold hfailure⟩

/-- **Configuration** gives turns to the nodes of a tree. -/
theorem configuration_turns (hgiven : given.Warns) : ConfigurationCases given
    (fun n path s as ended => ∃ turns tolds, Turns given as s ended.2 turns tolds ∧
      ∀ turn ∈ turns, turn.Meets n path)
    (fun i children path s as ended => ∃ turns tolds, Turns given as s ended.2 turns tolds ∧
      ∀ turn ∈ turns, turn.Among i children path) where
  untyped _ _ s _ := ⟨[], [], .nil s, by simp⟩
  deferred n p path s hp _ := by
    obtain ⟨told, hgoes⟩ := configureSelf_goes hgiven p n path s
    refine ⟨_, _, .single hgoes, fun turn hturn => ?_⟩
    cases List.mem_singleton.mp hturn
    exact .root rfl rfl ⟨hp, by cases n; rfl⟩
  passed n p path s hp _ as children t h := by
    obtain ⟨turns, tolds, hturns, hamong⟩ := h
    obtain ⟨told, hgoes⟩ := configureSelf_goes hgiven p { n with children } path t
    -- the turn of the node comes after those of its children
    refine ⟨_, _, hturns.append (.single hgoes) fun turn hturn other hother => ?_,
      fun turn hturn => ?_⟩
    · cases List.mem_singleton.mp hother
      exact (hamong turn hturn).precedes_root
    · rcases List.mem_append.mp hturn with hturn | hturn
      · exact (hamong turn hturn).meets
      · cases List.mem_singleton.mp hturn
        exact .root rfl rfl ⟨hp, by cases n; rfl⟩
  stopped n _ _ _ _ _ _ _ _ _ h := by
    obtain ⟨turns, tolds, hturns, hamong⟩ := h
    exact ⟨turns, tolds, hturns, fun turn hturn => (hamong turn hturn).meets⟩
  nil _ _ s := ⟨[], [], .nil s, by simp⟩
  skipped i child rest path s hchild _ _ _ _ h := by
    obtain ⟨turns, tolds, hturns, hamong⟩ := h
    have hskip : (Turn.skip [i] (path ++ "." ++ child.name) child).Goes given _ s _ :=
      .skipped [i] (path ++ "." ++ child.name) child s
    have hmeets : (Turn.skip [] (path ++ "." ++ child.name) child).Meets child
        (path ++ "." ++ child.name) := .root rfl rfl ⟨rfl, hchild⟩
    refine ⟨_, _, Turns.append (.single hskip) hturns fun turn hturn other hother => ?_,
      fun turn hturn => ?_⟩
    · cases List.mem_singleton.mp hturn
      exact (hamong other hother).precedes []
    · rcases List.mem_append.mp hturn with hturn | hturn
      · cases List.mem_singleton.mp hturn
        exact .first rest hmeets
      · exact (hamong turn hturn).later child
  stops i child rest path s _ _ _ _ _ h := by
    obtain ⟨turns, tolds, hturns, hmeets⟩ := h
    refine ⟨_, _, hturns.under i, fun turn hturn => ?_⟩
    obtain ⟨inner, hinner, rfl⟩ := List.mem_map.mp hturn
    exact .first rest (hmeets inner hinner)
  cons i child rest path s _ _ _ _ _ _ _ _ _ h hrest := by
    obtain ⟨turns, tolds, hturns, hmeets⟩ := h
    obtain ⟨turns', tolds', hturns', hamong⟩ := hrest
    refine ⟨_, _, (hturns.under i).append hturns' fun turn hturn other hother => ?_,
      fun turn hturn => ?_⟩
    · obtain ⟨inner, hinner, rfl⟩ := List.mem_map.mp hturn
      rw [Turn.position_under]
      exact (hamong other hother).precedes _
    · rcases List.mem_append.mp hturn with hturn | hturn
      · obtain ⟨inner, hinner, rfl⟩ := List.mem_map.mp hturn
        exact .first rest (hmeets inner hinner)
      · exact (hamong turn hturn).later child

end

/-! ## Whole trees -/

/-- A configuration of a tree, with the turns of its nodes, what is reported in each of them, and where
the nodes went. -/
structure Traversed (given : Provider) (n : Node Instance) (s : State)
    (r : Except Stop (Option Instance)) (n' : Node Instance) (t : State) (turns : List Turn)
    (tolds : List (List Diagnostic)) (tried : List Attempt) (move : Moves) : Prop where
  /-- The turns are all that happens, and those that are not skipped are the attempts. -/
  whole : Turns given tried s t turns tolds
  /-- What is reported is reported in that order. -/
  told : s.journal.Tells t.journal tolds.flatten
  /-- The path of a turn is made of the names from the root, joined by dots. -/
  nodes : ∀ turn ∈ turns, ∃ m names, n.at? turn.position = some m ∧
    n.names turn.position = some names ∧ turn.path = ".".intercalate names ∧ turn.Of m
  /-- No node is tried twice. -/
  once : (tried.map (·.position)).Nodup
  /-- A configuration that returns has tried its root and all that it is to reach, and no more. -/
  returned : (∃ object, r = .ok object) → n.Reaches [] ∧
    ∀ p, p ∈ tried.map (·.position) ↔ n.Reaches p
  /-- A configuration that fails has no plugin type for its root; or its last attempt fails, and it has
  tried all that is to reach up to there, and no more. -/
  failed : ∀ stop, r = .error stop → n.plugin = none ∧ tried = [] ∨ ∃ before last,
    tried = before ++ [last] ∧ (∀ a ∈ before, a.Passes given) ∧
      settle (last.result given) = .error stop ∧ ∀ p, n.Reaches p →
        (p ∈ tried.map (·.position) ↔ p = last.position ∨ Precedes p last.position)
  /-- Nodes are changed where they are tried. -/
  becomes : n.Becomes (Attempt.tries tried) n' move
  /-- When a configuration returns, a node that it was not to reach is left as it is; or it is gone with
  all that was below a node, which an element point of its parent took.  That node was tried itself, or
  its parent deferred it. -/
  spared : (∃ object, r = .ok object) → ∀ p m, n.at? p = some m → ¬ n.Reaches p →
    (∃ q, move p = some q ∧ n'.at? q = some m) ∨
    ∃ q i rest parent gone, p = q ++ i :: rest ∧ n.at? q = some parent ∧
      n.at? (q ++ [i]) = some gone ∧ move (q ++ [i]) = none ∧
      (∃ a ∈ tried, a.position = q ∧ ∃ x ∈ a.construction.points,
        x.source = .element ∧ x.Wants gone) ∧
      (n.Reaches (q ++ [i]) ∨ parent.defersChildren = true)

section

variable {given : Provider} {n n' : Node Instance} {s t : State} {r : Except Stop (Option Instance)}
  {as : List Attempt} {path : String} {move : Moves}

namespace Contained

theorem returned {object : Option Instance} (h : Contained given n path as s (.ok object) n' t) :
    n.Reaches [] ∧ ∀ p, p ∈ as.map (·.position) ↔ n.Reaches p := by
  have htyped : n.plugin ≠ none := fun hnone => by cases (h.untyped hnone).2
  obtain ⟨before, last, -, -, -, hsites⟩ := h.typed htyped
  refine ⟨Node.reaches_nil.mpr htyped, fun p => ?_⟩
  rw [hsites ⟨object, rfl⟩, Node.mem_sites_iff]

/-- The nodes that were tried before the last are those before it in post-order. -/
theorem mem_iff_precedes {before : List Attempt} {last : Attempt}
    (h : Contained given n path (before ++ [last]) s r n' t) {p : List Nat} (hp : n.Reaches p) :
    p ∈ (before ++ [last]).map (·.position) ↔ p = last.position ∨ Precedes p last.position := by
  obtain ⟨rest, hrest⟩ := h.order
  have horder := n.sites_precede
  rw [← hrest, List.pairwise_append] at horder
  obtain ⟨htried, -, hlater⟩ := horder
  rw [List.map_append, List.map_singleton] at htried ⊢
  constructor
  · intro hmem
    rcases List.mem_append.mp hmem with hmem | hmem
    · exact .inr ((List.pairwise_append.mp htried).2.2 p hmem _ (List.mem_singleton_self _))
    · exact .inl (List.mem_singleton.mp hmem)
  · rintro (rfl | hprecedes)
    · exact List.mem_append_right _ (List.mem_singleton_self _)
    · have hsite := Node.mem_sites_iff.mpr hp
      rw [← hrest, List.map_append, List.map_singleton] at hsite
      rcases List.mem_append.mp hsite with hmem | hmem
      · exact hmem
      · refine absurd hprecedes (hlater _ ?_ p hmem).asymm
        simp

theorem failed {stop : Stop} (h : Contained given n path as s (.error stop) n' t) :
    n.plugin = none ∧ as = [] ∨ ∃ before last, as = before ++ [last] ∧
      (∀ a ∈ before, a.Passes given) ∧ settle (last.result given) = .error stop ∧
        ∀ p, n.Reaches p →
          (p ∈ as.map (·.position) ↔ p = last.position ∨ Precedes p last.position) := by
  by_cases hplugin : n.plugin = none
  · exact .inl ⟨hplugin, (h.untyped hplugin).1⟩
  · obtain ⟨before, last, rfl, hbefore, hlast, -⟩ := h.typed hplugin
    exact .inr ⟨before, last, rfl, hbefore, hlast.symm, fun p => h.mem_iff_precedes⟩

end Contained

/-- A node that a configuration was not to reach is left as it is, or gone with a node above it or with
itself. -/
theorem Node.Becomes.spared (h : n.Becomes (Attempt.tries as) n' move)
    (hreached : ∀ p, p ∈ as.map (·.position) ↔ n.Reaches p) {p : List Nat} {m : Node Instance}
    (hm : n.at? p = some m) (hp : ¬ n.Reaches p) :
    (∃ q, move p = some q ∧ n'.at? q = some m) ∨
    ∃ q i rest parent gone, p = q ++ i :: rest ∧ n.at? q = some parent ∧
      n.at? (q ++ [i]) = some gone ∧ move (q ++ [i]) = none ∧
      (∃ a ∈ as, a.position = q ∧ ∃ x ∈ a.construction.points,
        x.source = .element ∧ x.Wants gone) ∧
      (n.Reaches (q ++ [i]) ∨ parent.defersChildren = true) := by
  have hreaches : ∀ {q : List Nat} {a : Attempt}, a ∈ as → a.position = q → n.Reaches q :=
    fun ha hposition => (hreached _).mp (List.mem_map.mpr ⟨_, ha, hposition⟩)
  cases hmove : move p with
  | some q =>
    obtain ⟨m', hm', hkeeps⟩ := h.kept hm hmove
    rw [← hkeeps.whole]
    · exact .inl ⟨q, rfl, hm'⟩
    · rintro r c ⟨a, ha, hposition, -⟩
      exact hp (hreaches ha hposition).above
  | none =>
    obtain ⟨q, i, rest, rfl, hq, hgone⟩ := h.orderly.exists_first hmove
    rw [List.append_cons, Node.at?_append] at hm
    obtain ⟨gone, hchild, -⟩ := Option.bind_eq_some_iff.mp hm
    obtain ⟨_, ⟨a, ha, hposition, rfl⟩, x, hx, hsource, hwants⟩ := h.taken hchild hq hgone
    obtain ⟨parent, hparent, -⟩ := Option.bind_eq_some_iff.mp (Node.at?_append n q [i] ▸ hchild)
    refine .inr ⟨q, i, rest, parent, gone, rfl, hparent, hchild, hgone,
      ⟨a, ha, hposition, x, hx, hsource, hwants⟩, ?_⟩
    cases hdefers : parent.defersChildren with
    | true => exact .inr rfl
    | false =>
      obtain ⟨plugin, hplugin, -⟩ := hwants
      exact .inl ((hreaches ha hposition).child hparent hdefers hchild (by simp [hplugin]))

end

/-- **Post-order.**  Whatever the tree and the state, a configuration is one turn after the other, in
post-order: children before their parents, from left to right. -/
theorem configure_traverses (n : Node Instance) (s : State) : ∃ turns tolds tried move,
    Traversed (Provider.of (callWithin (s.knownKeys.length + 2))) n s (configure n s).1.1
      (configure n s).1.2 (configure n s).2 turns tolds tried move := by
  have hgiven := Provider.warns_of_callWithin (s.knownKeys.length + 2)
  have hcontained := configureNode_contained hgiven n n.name s
  obtain ⟨turns, tolds, hturns, hmeets⟩ := (configuration_turns hgiven).node n n.name s
  obtain ⟨-, move, hbecomes⟩ := (configuration_becomes (s.knownKeys.length + 2)).node n n.name s
  refine ⟨turns, tolds, _, move, hturns, hturns.runs.tells, fun turn hturn => ?_, hcontained.once, ?_,
    ?_, hbecomes, ?_⟩
  · obtain ⟨m, names, hm, hnames, hpath, hof⟩ := hmeets turn hturn
    exact ⟨m, n.name :: names, hm, hnames, hpath, hof⟩
  · rintro ⟨object, hr⟩
    exact Contained.returned (hr ▸ hcontained)
  · intro stop hr
    exact Contained.failed (hr ▸ hcontained)
  · rintro ⟨object, hr⟩ p m
    exact hbecomes.spared (Contained.returned (hr ▸ hcontained)).2

end ComponentAssembly

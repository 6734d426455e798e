import ComponentAssembly.Proofs.PluginMemo
import ComponentAssembly.Proofs.Positions
import Mathlib.Data.Option.Basic

/-!
# What an annotation fills in

An annotation walks through a tree and asks the registry, for each node without a plugin type, for that
of the node's name.  The registry learns on the way, but what it finds for a name stays the same, whether
it is met at another depth or on a second walk.  Position by position (`Node.FilledBy`) the tree is as it
was, but for missing types:

    plugin type there before    kept
    no plugin type, at name     what a lookup finds for the name, maybe none
    all else                    as before, below untyped nodes too

So a second annotation has nothing to fill in and leaves tree and registry alone, and one with another
category looks up the nodes only that are still without a type (`Registry.Reachable.annotate_fills`).
-/

namespace ComponentAssembly

namespace Node

variable {α : Type} {known : String → Option PluginType}

/-! ## Nodes with missing types filled in -/

/-- A node is as before, but for the plugin type that is found for its name if it had none. -/
structure Filled (known : String → Option PluginType) (m m' : Node α) : Prop where
  name : m'.name = m.name
  attributes : m'.attributes = m.attributes
  text : m'.text = m.text
  object : m'.object = m.object
  count : m'.children.length = m.children.length
  kept : m.plugin ≠ none → m'.plugin = m.plugin
  found : m.plugin = none → m'.plugin = known m.name

/-- Two trees have the same positions, and at each the node of the one is that of the other, filled. -/
def FilledBy (known : String → Option PluginType) (n n' : Node α) : Prop :=
  ∀ p, Option.Rel (Filled known) (n.at? p) (n'.at? p)

theorem allAnnotatedBy_eq_map (known : String → Option PluginType) (nodes : List (Node α)) :
    allAnnotatedBy known nodes = nodes.map (annotatedBy known) := by
  induction nodes with
  | nil =>
    unfold allAnnotatedBy
    rfl
  | cons n rest ih =>
    unfold allAnnotatedBy
    rw [ih, List.map_cons]

@[simp]
theorem annotatedBy_children (n : Node α) :
    (n.annotatedBy known).children = n.children.map (annotatedBy known) := by
  obtain ⟨name, plugin, attributes, text, children, object⟩ := n
  unfold annotatedBy
  exact allAnnotatedBy_eq_map known children

theorem annotatedBy_filled (n : Node α) : Filled known n (n.annotatedBy known) := by
  have hcount : (n.annotatedBy known).children.length = n.children.length := by
    simp
  obtain ⟨name, plugin, attributes, text, children, object⟩ := n
  unfold annotatedBy at hcount ⊢
  refine ⟨rfl, rfl, rfl, rfl, hcount, ?_, ?_⟩
  · intro htyped
    obtain ⟨p, rfl⟩ := Option.ne_none_iff_exists'.mp htyped
    rfl
  · rintro ⟨⟩
    rfl

/-- What is annotated stays where it is. -/
@[simp]
theorem annotatedBy_at? (n : Node α) (p : List Nat) :
    (n.annotatedBy known).at? p = (n.at? p).map (annotatedBy known) := by
  induction p generalizing n with
  | nil => rfl
  | cons i p ih =>
    rw [at?, at?, annotatedBy_children, List.getElem?_map]
    cases n.children[i]? with
    | none => rfl
    | some child => exact ih child

theorem annotatedBy_filledBy (n : Node α) : FilledBy known n (n.annotatedBy known) := by
  intro p
  rw [annotatedBy_at?]
  cases n.at? p with
  | none => exact .none
  | some m => exact .some m.annotatedBy_filled

end Node

namespace Registry

variable {r t : Registry} {category key : String} {α : Type}

/-! ## Once more -/

/-- A lookup that finds nothing leaves the registry alone. -/
theorem plugin?_nothing (hr : r.Coherent) (h : r.resolve? category key = none) (j : Journal) :
    (plugin? category key r j).1 = (none, r) := by
  have hunknown : r.remembered? category key = none := by
    by_contra hknown
    obtain ⟨p, hp⟩ := Option.ne_none_iff_exists'.mp hknown
    rw [hr category key p hp] at h
    cases h
  obtain ⟨k, hanew⟩ := plugin?_anew hunknown j
  rw [hanew, h]

/-- An action has one answer and leaves the registry as it is, whatever was logged before. -/
def Rests (r : Registry) {β : Type} (m : Registering β) (b : β) : Prop :=
  ∀ j, (m r j).1 = (b, r)

theorem rests_pure {β : Type} (b : β) : r.Rests (pure b) b :=
  fun _ => rfl

theorem Rests.bind {β γ : Type} {m : Registering β} {b : β} {f : β → Registering γ} {c : γ}
    (hm : r.Rests m b) (hf : r.Rests (f b) c) : r.Rests (m >>= f) c := by
  intro j
  show (f (m r j).1.1 (m r j).1.2 (m r j).2).1 = (c, r)
  rw [hm j]
  exact hf _

mutual

theorem rests_annotate (hr : r.Coherent) (category : String) (n : Node α) :
    r.Rests (annotate category (n.annotatedBy (r.resolve? category)))
      (n.annotatedBy (r.resolve? category)) := by
  obtain ⟨name, plugin, attributes, text, children, object⟩ := n
  have hchildren := rests_annotateAll hr category children
  unfold Node.annotatedBy annotate
  cases htype : plugin.or (r.resolve? category name) with
  | some p => exact (rests_pure (some p)).bind (hchildren.bind (rests_pure _))
  | none =>
    -- had the name been found, it would have been filled in
    have hnothing := plugin?_nothing hr (Option.or_eq_none_iff.mp htype).2
    exact Rests.bind hnothing ((rests_pure none).bind (hchildren.bind (rests_pure _)))

theorem rests_annotateAll (hr : r.Coherent) (category : String) (nodes : List (Node α)) :
    r.Rests (annotateAll category (Node.allAnnotatedBy (r.resolve? category) nodes))
      (Node.allAnnotatedBy (r.resolve? category) nodes) := by
  match nodes with
  | [] =>
    unfold Node.allAnnotatedBy annotateAll
    exact rests_pure []
  | n :: rest =>
    unfold Node.allAnnotatedBy annotateAll
    exact (rests_annotate hr category n).bind
      ((rests_annotateAll hr category rest).bind (rests_pure _))

end

/-! ## Annotation as a whole -/

/-- What a lookup gives for a name, its identity apart. -/
def gives (r : Registry) (category : String) (j : Journal) (name : String) : Option PluginType :=
  (plugin? category name r j).1.1.map (·.plugin)

/-- An annotation fills in what lookups give, at the time or after whatever lookups. -/
theorem annotate_filledBy (hr : r.Coherent) (ht : r.Learns t) (category : String) (n : Node α)
    (j k : Journal) : n.FilledBy (t.gives category k) (annotate category n r j).1.1 := by
  have hgives : t.gives category k = r.resolve? category := by
    funext name
    rw [gives, (plugin?_spec (ht.coherent hr) category name k).1, ht.resolve?]
  rw [hgives, (answers_annotate hr category n r j (.refl r)).1]
  exact n.annotatedBy_filledBy

/-- **Annotation only fills in missing types.**  A tree that was annotated has the nodes that it had, in
their places, with their names, attributes, texts and objects.  A plugin type that was there is kept;
where there was none, there is what lookups of the name give, before the annotation as well as later on.
As long as nothing is registered, annotating the result again gives that same tree and teaches the
registry nothing, and annotating it with another category fills in those nodes only that still have no
type. -/
theorem Reachable.annotate_fills (h : r.Reachable) (category : String) (n : Node α) (j : Journal) :
    ∃ n' t j', annotate category n r j = ((n', t), j') ∧
      (∀ k, n.FilledBy (r.gives category k) n') ∧
      ∀ qs : List Request, (∀ q ∈ qs, q.isLookup = true) → ∀ i u, after qs t i = u →
        (∀ k, n.FilledBy (u.gives category k) n') ∧
        (∀ k, (annotate category n' u k).1 = (n', u)) ∧
        ∀ second k k', n'.FilledBy (u.gives second k) (annotate second n' u k').1.1 := by
  have hr := h.coherent
  obtain ⟨hanswer, hlearns⟩ := answers_annotate hr category n r j (.refl r)
  refine ⟨_, _, _, rfl, annotate_filledBy hr (.refl r) category n j, ?_⟩
  rintro qs hqs i u rfl
  have hlater := hlearns.trans (learns_after (hlearns.coherent hr) hqs i)
  have hu := hlater.coherent hr
  refine ⟨annotate_filledBy hr hlater category n j, ?_, fun second k k' => ?_⟩
  · rw [hanswer, ← hlater.resolve?]
    exact rests_annotate hu category n
  · exact annotate_filledBy hu (.refl _) second _ k' k

/-- A console with a node below that only another category knows. -/
theorem console_annotate_fills :
    let r := after [.registerPlugin "Core" "Console" (.of ⟨"org.example.Console"⟩),
      .registerPlugin "Filters" "Level" (.of ⟨"org.example.Level"⟩)] {} {}
    let n : Node Instance := { name := "console", children := [{ name := "LEVEL" }] }
    r.Reachable ∧ ∃ n' t j', annotate "core" n r {} = ((n', t), j') ∧
      n'.plugin = some (.ofClass "Console" "core" (.of ⟨"org.example.Console"⟩)) ∧
      (n'.children.map (·.plugin)) = [none] ∧
      (∀ k, (annotate "core" n' (after [.plugin "core" "level"] t {}) k).1 =
        (n', after [.plugin "core" "level"] t {})) ∧
      (annotate "filters" n' t {}).1.1.plugin = n'.plugin := by
  intro r n
  have hreachable : r.Reachable := reachable_after .empty _ {}
  obtain ⟨n', t, j', hrun, -, hlater⟩ := hreachable.annotate_fills "core" n {}
  have hplugin : (annotate "core" n r {}).1.1.plugin =
      some (.ofClass "Console" "core" (.of ⟨"org.example.Console"⟩)) := by decide +kernel
  have hchild : (annotate "core" n r {}).1.1.children.map (·.plugin) = [none] := by decide +kernel
  rw [hrun] at hplugin hchild
  have hlookups : ∀ q ∈ [Request.plugin "core" "level"], q.isLookup = true := by
    intro q hq
    rw [List.mem_singleton.mp hq]
    rfl
  refine ⟨hreachable, n', t, j', hrun, hplugin, hchild, ?_, ?_⟩
  · exact (hlater [.plugin "core" "level"] hlookups {} _ rfl).2.1
  · have hsecond := (hlater [] (fun _ h => nomatch h) {} t rfl).2.2 "filters" {} {} []
    cases hsecond with
    | some hfilled => exact hfilled.kept (by rw [hplugin]; exact nofun)

end Registry

end ComponentAssembly

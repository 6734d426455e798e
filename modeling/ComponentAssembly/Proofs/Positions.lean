import ComponentAssembly.Node
import Mathlib.Data.List.Nodup

/-!
# Positions in a tree

A position is the list of the numbers of the children on the way from the root.  In post-order a
position comes before another (`Precedes`) if it is below it, or if it is to the left where they part:

    Precedes p q ↔ p = q ++ r with r ≠ [], or p = c ++ i :: _ and q = c ++ j :: _ with i < j

A configuration goes to the nodes with a plugin type all of whose ancestors have one and do not defer
their children (`Node.Reaches`).  Those are the sites of the tree, in post-order (`Node.sites`):

    p ∈ n.sites ↔ n.Reaches p                                                  (Node.mem_sites_iff)
-/

namespace ComponentAssembly

/-! ## Post-order -/

/-- A position comes before another in post-order. -/
inductive Precedes : List Nat → List Nat → Prop
  | inside (i : Nat) (p : List Nat) : Precedes (i :: p) []
  | left {i j : Nat} (hij : i < j) (p q : List Nat) : Precedes (i :: p) (j :: q)
  | under (i : Nat) {p q : List Nat} (h : Precedes p q) : Precedes (i :: p) (i :: q)

namespace Precedes

variable {p q : List Nat}

theorem asymm (h : Precedes p q) : ¬ Precedes q p := by
  induction h with
  | inside i p =>
    intro h
    cases h
  | left hij p q =>
    intro h
    cases h with
    | left hji _ _ => omega
    | under _ _ => omega
  | under i _ ih =>
    intro h
    cases h with
    | left hij _ _ => omega
    | under _ h => exact ih h

theorem irrefl (h : Precedes p p) : False :=
  h.asymm h

/-- A position comes before those above it. -/
theorem append (q : List Nat) {r : List Nat} (hr : r ≠ []) : Precedes (q ++ r) q := by
  induction q with
  | nil =>
    cases r with
    | nil => exact absurd rfl hr
    | cons i p => exact .inside i p
  | cons i q ih => exact .under i ih

theorem part (c : List Nat) {i j : Nat} (hij : i < j) (p q : List Nat) :
    Precedes (c ++ i :: p) (c ++ j :: q) := by
  induction c with
  | nil => exact .left hij p q
  | cons k c ih => exact .under k ih

end Precedes

/-- **Post-order**: below before above, and left before right. -/
theorem precedes_iff {p q : List Nat} :
    Precedes p q ↔ (∃ r, r ≠ [] ∧ p = q ++ r) ∨
      ∃ c i j p' q', i < j ∧ p = c ++ i :: p' ∧ q = c ++ j :: q' := by
  constructor
  · intro h
    induction h with
    | inside i p => exact .inl ⟨i :: p, by simp, rfl⟩
    | left hij p q => exact .inr ⟨[], _, _, p, q, hij, rfl, rfl⟩
    | under i _ ih =>
      rcases ih with ⟨r, hr, rfl⟩ | ⟨c, j, k, p', q', hjk, rfl, rfl⟩
      · exact .inl ⟨r, hr, rfl⟩
      · exact .inr ⟨i :: c, j, k, p', q', hjk, rfl, rfl⟩
  · rintro (⟨r, hr, rfl⟩ | ⟨c, i, j, p', q', hij, rfl, rfl⟩)
    · exact .append q hr
    · exact .part c hij p' q'

/-! ## Sites -/

mutual

/-- The positions of the nodes of a tree that are to be constructed, children before their parents.
A position is the list of the numbers of the children on the way from the root. -/
def Node.sites {α : Type} : Node α → List (List Nat)
  | ⟨_, plugin, _, _, children, _⟩ =>
    match plugin with
    | none => []
    | some p => if p.entry.defer then [[]] else Node.sitesAmong 0 children ++ [[]]

/-- The positions of the nodes below some children, of which the first has a number. -/
def Node.sitesAmong {α : Type} (i : Nat) : List (Node α) → List (List Nat)
  | [] => []
  | child :: rest => child.sites.map (i :: ·) ++ Node.sitesAmong (i + 1) rest

end

namespace Node

variable {α : Type} {n : Node α} {p : List Nat} {i : Nat}

@[simp]
theorem sites_untyped (h : n.plugin = none) : n.sites = [] := by
  obtain ⟨name, plugin, attributes, text, children, object⟩ := n
  cases h
  unfold sites
  rfl

theorem sites_typed {plugin : PluginType} (hplugin : n.plugin = some plugin) :
    n.sites = if plugin.entry.defer then [[]] else sitesAmong 0 n.children ++ [[]] := by
  obtain ⟨name, _, attributes, text, children, object⟩ := n
  cases hplugin
  unfold sites
  rfl

@[simp]
theorem sitesAmong_cons (child : Node α) (rest : List (Node α)) (i : Nat) :
    sitesAmong i (child :: rest) = child.sites.map (i :: ·) ++ sitesAmong (i + 1) rest := by
  rw [sitesAmong]

theorem mem_sitesAmong_iff {children : List (Node α)} {i : Nat} {p : List Nat} :
    p ∈ sitesAmong i children ↔
      ∃ k q child, p = (i + k) :: q ∧ children[k]? = some child ∧ q ∈ child.sites := by
  induction children generalizing i with
  | nil => simp [sitesAmong]
  | cons child rest ih =>
    rw [sitesAmong_cons, List.mem_append, ih]
    constructor
    · rintro (hfirst | ⟨k, q, other, rfl, hk, hq⟩)
      · obtain ⟨q, hq, rfl⟩ := List.mem_map.mp hfirst
        exact ⟨0, q, child, rfl, rfl, hq⟩
      · exact ⟨k + 1, q, other, by rw [Nat.add_right_comm, Nat.add_assoc], hk, hq⟩
    · rintro ⟨k, q, other, rfl, hk, hq⟩
      cases k with
      | zero =>
        cases hk
        exact .inl (List.mem_map.mpr ⟨q, hq, rfl⟩)
      | succ k => exact .inr ⟨k, q, other, by rw [Nat.add_right_comm, Nat.add_assoc], hk, hq⟩

mutual

/-- The sites come in post-order. -/
theorem sites_precede (n : Node α) : n.sites.Pairwise Precedes := by
  obtain ⟨name, plugin, attributes, text, children, object⟩ := n
  unfold sites
  cases plugin with
  | none => exact .nil
  | some p =>
    dsimp only
    split
    · exact List.pairwise_singleton _ _
    · refine List.pairwise_append.mpr
        ⟨sitesAmong_precede children 0, List.pairwise_singleton _ _, fun p hp q hq => ?_⟩
      cases List.mem_singleton.mp hq
      obtain ⟨k, r, -, rfl, -, -⟩ := mem_sitesAmong_iff.mp hp
      exact .inside _ r

theorem sitesAmong_precede (children : List (Node α)) (i : Nat) :
    (sitesAmong i children).Pairwise Precedes := by
  match children with
  | [] =>
    unfold sitesAmong
    exact .nil
  | child :: rest =>
    unfold sitesAmong
    have hfirst : (child.sites.map (i :: ·)).Pairwise Precedes :=
      List.pairwise_map.mpr ((sites_precede child).imp fun h => h.under i)
    refine List.pairwise_append.mpr ⟨hfirst, sitesAmong_precede rest (i + 1), fun p hp q hq => ?_⟩
    obtain ⟨p, -, rfl⟩ := List.mem_map.mp hp
    obtain ⟨k, r, -, rfl, -, -⟩ := mem_sitesAmong_iff.mp hq
    exact .left (by omega) p r

end

/-- No site comes twice. -/
theorem nodup_sites (n : Node α) : n.sites.Nodup := by
  refine (sites_precede n).imp fun h => ?_
  rintro rfl
  exact h.irrefl

/-! ## Nodes at positions -/

/-- The node at a position. -/
def at? (n : Node α) : List Nat → Option (Node α)
  | [] => some n
  | i :: position => (n.children[i]?).bind (·.at? position)

/-- The names from a node to the one at a position. -/
def names (n : Node α) : List Nat → Option (List String)
  | [] => some [n.name]
  | i :: position => (n.children[i]?).bind fun child => (child.names position).map (n.name :: ·)

/-- A configuration goes to a node with a plugin type all of whose ancestors have one and do not defer
their children. -/
def Reaches (n : Node α) (p : List Nat) : Prop :=
  (∃ m, n.at? p = some m ∧ m.plugin ≠ none) ∧
    ∀ q r, p = q ++ r → r ≠ [] →
      ∃ m, n.at? q = some m ∧ m.plugin ≠ none ∧ m.defersChildren = false

theorem reaches_nil : n.Reaches [] ↔ n.plugin ≠ none := by
  constructor
  · rintro ⟨⟨m, hm, hplugin⟩, -⟩
    cases hm
    exact hplugin
  · intro hplugin
    refine ⟨⟨n, rfl, hplugin⟩, fun q r hqr hr => ?_⟩
    exact absurd (List.append_eq_nil_iff.mp hqr.symm).2 hr

theorem at?_append (n : Node α) (p q : List Nat) :
    n.at? (p ++ q) = (n.at? p).bind (·.at? q) := by
  induction p generalizing n with
  | nil => rfl
  | cons i p ih =>
    rw [List.cons_append, at?, at?, Option.bind_assoc]
    exact congrArg _ (funext fun child => ih child)

theorem at?_cons (n : Node α) (i : Nat) (p : List Nat) {child : Node α}
    (h : n.children[i]? = some child) : n.at? (i :: p) = child.at? p := by
  rw [at?, h]
  rfl

@[simp]
theorem reaches_cons : n.Reaches (i :: p) ↔
    n.plugin ≠ none ∧ n.defersChildren = false ∧
      ∃ child, n.children[i]? = some child ∧ child.Reaches p := by
  constructor
  · rintro ⟨⟨m, hm, hplugin⟩, habove⟩
    obtain ⟨child, hchild, hmchild⟩ := Option.bind_eq_some_iff.mp hm
    obtain ⟨root, hroot, htyped, heager⟩ := habove [] (i :: p) rfl (by simp)
    cases hroot
    refine ⟨htyped, heager, child, hchild, ⟨m, hmchild, hplugin⟩, fun q r hqr hr => ?_⟩
    obtain ⟨k, hk, hk'⟩ := habove (i :: q) r (by rw [hqr]; rfl) hr
    rw [at?_cons n i q hchild] at hk
    exact ⟨k, hk, hk'⟩
  · rintro ⟨htyped, heager, child, hchild, ⟨m, hm, hplugin⟩, habove⟩
    refine ⟨⟨m, by rw [at?_cons n i p hchild, hm], hplugin⟩, fun q r hqr hr => ?_⟩
    cases q with
    | nil => exact ⟨n, rfl, htyped, heager⟩
    | cons j q =>
      obtain ⟨rfl, htail⟩ := List.cons.inj hqr
      obtain ⟨k, hk, hk'⟩ := habove q r htail hr
      exact ⟨k, by rw [at?_cons n i q hchild, hk], hk'⟩

/-- A configuration that goes to a node has gone to those above. -/
theorem Reaches.above {q : List Nat} (h : n.Reaches (p ++ q)) : n.Reaches p := by
  induction p generalizing n with
  | nil =>
    cases q with
    | nil => exact h
    | cons i q => exact reaches_nil.mpr (reaches_cons.mp h).1
  | cons i p ih =>
    obtain ⟨htyped, heager, child, hchild, hbelow⟩ := reaches_cons.mp h
    exact reaches_cons.mpr ⟨htyped, heager, child, hchild, ih hbelow⟩

/-- It goes on to the children with a plugin type, unless they are deferred. -/
theorem Reaches.child {m k : Node α} (h : n.Reaches p) (hm : n.at? p = some m)
    (heager : m.defersChildren = false) (hk : n.at? (p ++ [i]) = some k) (htyped : k.plugin ≠ none) :
    n.Reaches (p ++ [i]) := by
  induction p generalizing n with
  | nil =>
    cases hm
    obtain ⟨child, hchild, hk⟩ := Option.bind_eq_some_iff.mp hk
    cases hk
    exact reaches_cons.mpr ⟨reaches_nil.mp h, heager, k, hchild, reaches_nil.mpr htyped⟩
  | cons j p ih =>
    obtain ⟨hroot, hroot', child, hchild, hbelow⟩ := reaches_cons.mp h
    rw [List.cons_append, at?_cons n j _ hchild] at hk
    rw [at?_cons n j p hchild] at hm
    exact reaches_cons.mpr ⟨hroot, hroot', child, hchild, ih hbelow hm hk⟩

/-- The positions of the nodes that are to be constructed are those that a configuration goes to. -/
theorem mem_sites_iff : p ∈ n.sites ↔ n.Reaches p := by
  induction p generalizing n with
  | nil =>
    rw [reaches_nil]
    cases hplugin : n.plugin with
    | none => simp [sites_untyped hplugin]
    | some plugin =>
      rw [sites_typed hplugin]
      split <;> simp
  | cons i p ih =>
    rw [reaches_cons]
    cases hplugin : n.plugin with
    | none => simp [sites_untyped hplugin]
    | some plugin =>
      rw [sites_typed hplugin]
      cases hdefer : plugin.entry.defer with
      | true => simp [defersChildren, hplugin, hdefer]
      | false =>
        have hbelow : i :: p ∈ sitesAmong 0 n.children ↔
            ∃ child, n.children[i]? = some child ∧ child.Reaches p := by
          rw [mem_sitesAmong_iff]
          simp [ih]
        simpa [defersChildren, hplugin, hdefer] using hbelow

end Node

end ComponentAssembly

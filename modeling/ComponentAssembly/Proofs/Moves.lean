import ComponentAssembly.Proofs.Accounting
import ComponentAssembly.Proofs.Positions

/-!
# Where nodes go

A configuration changes nodes only where they are tried, and takes children away only there, for the
element points of the construction.  All nodes that are left stay below their parents and in their
order (`Moves.Orderly`), and there is this to say of them (`Node.Becomes`):

    tried              same name, plugin type and text
    not tried          same attributes and object, too
    none tried below   same node, with all that is below
    gone               with an ancestor, or taken for an element point of the parent
-/

namespace ComponentAssembly

open Assemble

/-! ## Moves -/

/-- The new positions of nodes, as far as they have one. -/
abbrev Moves := List Nat → Option (List Nat)

namespace Moves

/-- Children stay with their parents, and all in their order. -/
structure Orderly (move : Moves) : Prop where
  root : move [] = some []
  child {p q : List Nat} {i : Nat} (h : move (p ++ [i]) = some q) :
    ∃ p' j, move p = some p' ∧ q = p' ++ [j]
  order {p q p' q' : List Nat} (h : Precedes p q) (hp : move p = some p') (hq : move q = some q') :
    Precedes p' q'

/-- Each child moves its own nodes. -/
def below (moves : Nat → Moves) : Moves
  | [] => some []
  | i :: p => (moves i p).map (i :: ·)

/-- The children get new places. -/
def renumber (place : Nat → Option Nat) : Moves
  | [] => some []
  | i :: p => (place i).map (· :: p)

def andThen (move next : Moves) : Moves := fun p => (move p).bind next

namespace Orderly

variable {move next : Moves} {p q : List Nat}

/-- Nothing but the root comes to the root. -/
theorem eq_nil (h : move.Orderly) (hp : move p = some []) : p = [] := by
  rcases List.eq_nil_or_concat p with rfl | ⟨p, i, rfl⟩
  · rfl
  · rw [List.concat_eq_append] at hp
    obtain ⟨p', j, -, hnil⟩ := h.child hp
    simp at hnil

/-- Where a node is gone, some ancestor or the node itself was the first to go. -/
theorem exists_first (h : move.Orderly) (hp : move p = none) :
    ∃ q i r, p = q ++ i :: r ∧ move q ≠ none ∧ move (q ++ [i]) = none := by
  induction p using List.reverseRecOn with
  | nil =>
    rw [h.root] at hp
    cases hp
  | append_singleton p i ih =>
    by_cases hparent : move p = none
    · obtain ⟨q, j, r, rfl, hq, hgone⟩ := ih hparent
      exact ⟨q, j, r ++ [i], by simp, hq, hgone⟩
    · exact ⟨p, i, [], rfl, hparent, hp⟩

theorem stay : Orderly some where
  root := rfl
  child := by
    rintro p _ i ⟨⟩
    exact ⟨p, i, rfl, rfl⟩
  order := by
    rintro p q _ _ h ⟨⟩ ⟨⟩
    exact h

theorem below {moves : Nat → Moves} (h : ∀ i, (moves i).Orderly) : (Moves.below moves).Orderly where
  root := rfl
  child := by
    rintro (_ | ⟨k, p⟩) q i hq
    · obtain ⟨r, hr, rfl⟩ := Option.map_eq_some_iff.mp hq
      rw [(h i).root] at hr
      cases hr
      exact ⟨[], i, rfl, rfl⟩
    · obtain ⟨r, hr, rfl⟩ := Option.map_eq_some_iff.mp hq
      obtain ⟨p', j, hp', rfl⟩ := (h k).child hr
      exact ⟨k :: p', j, congrArg (Option.map (k :: ·)) hp', rfl⟩
  order := by
    intro p q p' q' hpq hp hq
    cases hpq with
    | inside i p =>
      obtain ⟨r, -, rfl⟩ := Option.map_eq_some_iff.mp hp
      cases hq
      exact .inside i r
    | left hij p q =>
      obtain ⟨r, -, rfl⟩ := Option.map_eq_some_iff.mp hp
      obtain ⟨r', -, rfl⟩ := Option.map_eq_some_iff.mp hq
      exact .left hij r r'
    | under i hpq =>
      obtain ⟨r, hr, rfl⟩ := Option.map_eq_some_iff.mp hp
      obtain ⟨r', hr', rfl⟩ := Option.map_eq_some_iff.mp hq
      exact .under i ((h i).order hpq hr hr')

theorem renumber {place : Nat → Option Nat}
    (h : ∀ {i j i' j' : Nat}, i < j → place i = some i' → place j = some j' → i' < j') :
    (Moves.renumber place).Orderly where
  root := rfl
  child := by
    rintro (_ | ⟨k, p⟩) q i hq
    · obtain ⟨j, -, rfl⟩ := Option.map_eq_some_iff.mp hq
      exact ⟨[], j, rfl, rfl⟩
    · obtain ⟨j, hj, rfl⟩ := Option.map_eq_some_iff.mp hq
      exact ⟨j :: p, i, congrArg (Option.map (· :: p)) hj, rfl⟩
  order := by
    intro p q p' q' hpq hp hq
    cases hpq with
    | inside i p =>
      obtain ⟨j, -, rfl⟩ := Option.map_eq_some_iff.mp hp
      cases hq
      exact .inside j p
    | left hij p q =>
      obtain ⟨i', hi', rfl⟩ := Option.map_eq_some_iff.mp hp
      obtain ⟨j', hj', rfl⟩ := Option.map_eq_some_iff.mp hq
      exact .left (h hij hi' hj') p q
    | @under i _ _ hpq =>
      obtain ⟨j, hj, rfl⟩ := Option.map_eq_some_iff.mp hp
      obtain ⟨j', hj', rfl⟩ := Option.map_eq_some_iff.mp hq
      cases hj.symm.trans hj'
      exact .under j hpq

theorem andThen (h : move.Orderly) (hnext : next.Orderly) : (move.andThen next).Orderly where
  root := by rw [Moves.andThen, h.root, Option.bind_some, hnext.root]
  child := by
    intro p q i hq
    obtain ⟨r, hr, hq⟩ := Option.bind_eq_some_iff.mp hq
    obtain ⟨p', j, hp', rfl⟩ := h.child hr
    obtain ⟨p'', k, hp'', rfl⟩ := hnext.child hq
    exact ⟨p'', k, by rw [Moves.andThen, hp', Option.bind_some, hp''], rfl⟩
  order := by
    intro p q p' q' hpq hp hq
    obtain ⟨r, hr, hp⟩ := Option.bind_eq_some_iff.mp hp
    obtain ⟨r', hr', hq⟩ := Option.bind_eq_some_iff.mp hq
    exact hnext.order (h.order hpq hr hr') hp hq

end Orderly

end Moves

/-! ## What nodes become -/

def Attempt.construction (a : Attempt) : Construction := a.state.declared a.plugin.pluginClass.type

/-- What is tried where. -/
abbrev Tries := List Nat → Construction → Prop

/-- What some attempts try. -/
def Attempt.tries (as : List Attempt) : Tries :=
  fun p c => ∃ a ∈ as, a.position = p ∧ a.construction = c

def Tries.under (i : Nat) (tries : Tries) : Tries := fun p c => tries (i :: p) c

/-- A node of a position that is left, before and after. -/
structure Node.Keeps (tries : Tries) (p : List Nat) (m m' : Node Instance) : Prop where
  same : m'.name = m.name ∧ m'.plugin = m.plugin ∧ m'.text = m.text
  /-- If it is not tried, it keeps its attributes and its object. -/
  untried : (∀ c, ¬ tries p c) → m'.attributes = m.attributes ∧ m'.object = m.object
  /-- If no node below it is tried either, it keeps its children. -/
  whole : (∀ r c, ¬ tries (p ++ r) c) → m' = m

/-- A tree before and after a configuration, and where its nodes went. -/
structure Node.Becomes (tries : Tries) (n n' : Node Instance) (move : Moves) : Prop where
  orderly : move.Orderly
  kept {p q : List Nat} {m : Node Instance} (hm : n.at? p = some m) (hq : move p = some q) :
    ∃ m', n'.at? q = some m' ∧ m.Keeps tries p m'
  /-- All nodes that are there were there before. -/
  onto {q : List Nat} {m' : Node Instance} (hm' : n'.at? q = some m') :
    ∃ p m, move p = some q ∧ n.at? p = some m
  /-- A child that is gone was taken for an element point of its parent. -/
  taken {p : List Nat} {i : Nat} {m : Node Instance} (hm : n.at? (p ++ [i]) = some m)
    (hp : move p ≠ none) (hgone : move (p ++ [i]) = none) :
    ∃ c, tries p c ∧ ∃ x ∈ c.points, x.source = .element ∧ x.Wants m

/-- Children before and after a configuration; the first has a number. -/
structure Node.BecomeAll (tries : Tries) (i : Nat) (children grown : List (Node Instance)) : Prop where
  length : grown.length = children.length
  each (k : Nat) : ∃ move : Moves, move.Orderly ∧ ∀ child, children[k]? = some child →
    ∃ child', grown[k]? = some child' ∧ child.Becomes (tries.under (i + k)) child' move

namespace Node

variable {tries more : Tries} {n n' m : Node Instance} {move : Moves}

namespace Becomes

theorem stay (tries : Tries) (n : Node Instance) : n.Becomes tries n some where
  orderly := .stay
  kept := by
    rintro p _ m hm ⟨⟩
    exact ⟨m, hm, ⟨rfl, rfl, rfl⟩, fun _ => ⟨rfl, rfl⟩, fun _ => rfl⟩
  onto := fun {q m'} hm' => ⟨q, m', rfl, hm'⟩
  taken := by
    rintro p i m - - ⟨⟩

theorem mono (h : n.Becomes tries n' move) (hmore : ∀ p c, tries p c → more p c) :
    n.Becomes more n' move where
  orderly := h.orderly
  kept := by
    intro p q m hm hq
    obtain ⟨m', hm', hkeeps⟩ := h.kept hm hq
    exact ⟨m', hm', hkeeps.same, fun hnone => hkeeps.untried fun c hc => hnone c (hmore _ c hc),
      fun hnone => hkeeps.whole fun r c hc => hnone r c (hmore _ c hc)⟩
  onto := h.onto
  taken := by
    intro p i m hm hp hgone
    obtain ⟨c, hc, hwants⟩ := h.taken hm hp hgone
    exact ⟨c, hmore p c hc, hwants⟩

/-- A node that is tried loses children to the element points of its construction. -/
theorem prune (h : n.Becomes tries n' move) {c : Construction} (hc : tries [] c)
    (hpruned : n'.Pruned c.points m) (object : Option Instance) :
    ∃ move', n.Becomes tries { m with object } move' := by
  obtain ⟨hands, hdealt, hwanted⟩ := hpruned.children
  obtain ⟨place, hplace⟩ := hdealt.places
  refine ⟨move.andThen (.renumber place), h.orderly.andThen (.renumber hplace.order), ?_, ?_, ?_⟩
  · intro p q k hk hq
    obtain ⟨r, hr, hplaced⟩ := Option.bind_eq_some_iff.mp hq
    obtain ⟨k', hk', hkeeps⟩ := h.kept hk hr
    cases r with
    | nil =>
      cases hplaced
      cases hk'
      obtain rfl := h.orderly.eq_nil hr
      refine ⟨_, rfl, ?_, fun hnone => absurd hc (hnone c), fun hnone => absurd hc (hnone [] c)⟩
      rw [hpruned.trimmed]
      exact hkeeps.same
    | cons j r =>
      obtain ⟨j', hj', rfl⟩ := Option.map_eq_some_iff.mp hplaced
      obtain ⟨child, hchild, hbelow⟩ := Option.bind_eq_some_iff.mp hk'
      exact ⟨k', (at?_cons _ j' r (hplace.kept hchild hj')).trans hbelow, hkeeps⟩
  · rintro (_ | ⟨j, q⟩) k' hk'
    · exact ⟨[], n, by rw [Moves.andThen, h.orderly.root]; rfl, rfl⟩
    · obtain ⟨child, hchild, hk'⟩ := Option.bind_eq_some_iff.mp hk'
      obtain ⟨i, hi, hchild⟩ := hplace.onto hchild
      obtain ⟨p, k, hp, hk⟩ := h.onto ((at?_cons n' i q hchild).trans hk')
      refine ⟨p, k, ?_, hk⟩
      rw [Moves.andThen, hp]
      exact congrArg (Option.map (· :: q)) hi
  · -- a child is gone: before the node was tried, dealt to one of its points, or with its parent
    intro p i k hk hp hgone
    cases hmove : move (p ++ [i]) with
    | none =>
      refine h.taken hk (fun hnone => hp ?_) hmove
      rw [Moves.andThen, hnone, Option.bind_none]
    | some r =>
      obtain ⟨p', j, hp', rfl⟩ := h.orderly.child hmove
      rw [Moves.andThen, hmove, Option.bind_some] at hgone
      cases p' with
      | nil =>
        obtain rfl := h.orderly.eq_nil hp'
        obtain ⟨k', hk', hkeeps⟩ := h.kept hk hmove
        obtain ⟨child, hchild, hk'⟩ := Option.bind_eq_some_iff.mp hk'
        cases hk'
        obtain ⟨hand, hhand, hmem⟩ := hplace.dealt hchild (Option.map_eq_none_iff.mp hgone)
        obtain ⟨x, hx, hsource, hwants⟩ := hwanted hand hhand _ hmem
        obtain ⟨plugin, hplugin, hwants⟩ := Visit.isWanted_iff.mp hwants
        exact ⟨c, hc, x, hx, hsource, plugin, hkeeps.same.2.1.symm.trans hplugin, hwants⟩
      | cons l p' =>
        have hplace' : place l = none := Option.map_eq_none_iff.mp hgone
        refine absurd ?_ hp
        rw [Moves.andThen, hp', Option.bind_some, Moves.renumber, hplace', Option.map_none]

end Becomes

namespace BecomeAll

variable {i : Nat} {child child' : Node Instance} {children grown rest rest' : List (Node Instance)}

theorem stay (tries : Tries) (i : Nat) (children : List (Node Instance)) :
    BecomeAll tries i children children where
  length := rfl
  each _ := ⟨some, .stay, fun child hchild => ⟨child, hchild, .stay _ child⟩⟩

theorem cons (hchild : child.Becomes (tries.under i) child' move)
    (h : BecomeAll tries (i + 1) rest rest') :
    BecomeAll tries i (child :: rest) (child' :: rest') where
  length := by rw [List.length_cons, List.length_cons, h.length]
  each := by
    rintro (_ | k)
    · refine ⟨move, hchild.orderly, fun _ hfirst => ?_⟩
      cases hfirst
      exact ⟨child', rfl, hchild⟩
    · rw [← Nat.add_assoc, Nat.add_right_comm]
      exact h.each k

theorem mono (h : BecomeAll tries i children grown) (hmore : ∀ p c, tries p c → more p c) :
    BecomeAll more i children grown where
  length := h.length
  each k := by
    obtain ⟨move, horderly, hbecomes⟩ := h.each k
    refine ⟨move, horderly, fun child hchild => ?_⟩
    obtain ⟨child', hchild', hchild⟩ := hbecomes child hchild
    exact ⟨child', hchild', hchild.mono fun p c => hmore ((i + k) :: p) c⟩

/-- Children of which none is tried are left as they are. -/
theorem eq (h : BecomeAll tries 0 children grown) (hnone : ∀ p c, ¬ tries p c) : grown = children := by
  refine List.ext_getElem? fun k => ?_
  obtain ⟨move, horderly, hbecomes⟩ := h.each k
  cases hchild : children[k]? with
  | none => rw [List.getElem?_eq_none_iff, h.length, ← List.getElem?_eq_none_iff, hchild]
  | some child =>
    obtain ⟨child', hchild', hbecomes⟩ := hbecomes child hchild
    obtain ⟨m, hm, hkeeps⟩ := hbecomes.kept (p := []) rfl horderly.root
    cases hm
    rw [hchild', hkeeps.whole fun r c => hnone _ c]

/-- What the children of a node become, it becomes. -/
theorem below (h : BecomeAll tries 0 n.children grown) :
    ∃ move, n.Becomes tries { n with children := grown } move := by
  choose moves horderly hbecomes using h.each
  simp only [Nat.zero_add] at hbecomes
  refine ⟨.below moves, .below horderly, ?_, ?_, ?_⟩
  · rintro (_ | ⟨i, p⟩) q m hm hq
    · cases hm
      cases hq
      refine ⟨_, rfl, ⟨rfl, rfl, rfl⟩, fun _ => ⟨rfl, rfl⟩, fun hnone => ?_⟩
      rw [h.eq hnone]
      cases n
      rfl
    · obtain ⟨child, hchild, hm⟩ := Option.bind_eq_some_iff.mp hm
      obtain ⟨r, hr, rfl⟩ := Option.map_eq_some_iff.mp hq
      obtain ⟨child', hchild', hbecomes⟩ := hbecomes i child hchild
      obtain ⟨m', hm', hkeeps⟩ := hbecomes.kept hm hr
      exact ⟨m', (at?_cons _ i r hchild').trans hm', hkeeps.same, hkeeps.untried, hkeeps.whole⟩
  · rintro (_ | ⟨i, q⟩) m' hm'
    · exact ⟨[], n, rfl, rfl⟩
    · obtain ⟨child', hchild', hm'⟩ := Option.bind_eq_some_iff.mp hm'
      have hlt : i < n.children.length := h.length ▸ (List.getElem?_eq_some_iff.mp hchild').1
      obtain ⟨grown', hgrown, hbecomes⟩ := hbecomes i _ (List.getElem?_eq_getElem hlt)
      cases hgrown.symm.trans hchild'
      obtain ⟨p, m, hp, hm⟩ := hbecomes.onto hm'
      exact ⟨i :: p, m, congrArg (Option.map (i :: ·)) hp,
        (at?_cons n i p (List.getElem?_eq_getElem hlt)).trans hm⟩
  · rintro (_ | ⟨k, p⟩) i m hm hp hgone
    · have hroot := Option.map_eq_none_iff.mp hgone
      rw [(horderly i).root] at hroot
      cases hroot
    · obtain ⟨child, hchild, hm⟩ := Option.bind_eq_some_iff.mp hm
      obtain ⟨child', -, hbecomes⟩ := hbecomes k child hchild
      exact hbecomes.taken hm (fun hnone => hp (congrArg (Option.map (k :: ·)) hnone))
        (Option.map_eq_none_iff.mp hgone)

end BecomeAll

end Node

/-! ## Configuration -/

section

variable {depth : Nat} {n n' : Node Instance} {p : PluginType} {path : String} {s : State}
  {as bs : List Attempt} {move : Moves} {i : Nat}

theorem Attempt.tries_left (p : List Nat) (c : Construction) (h : Attempt.tries as p c) :
    Attempt.tries (as ++ bs) p c := by
  obtain ⟨a, ha, hposition⟩ := h
  exact ⟨a, List.mem_append_left _ ha, hposition⟩

theorem Attempt.tries_right (p : List Nat) (c : Construction) (h : Attempt.tries bs p c) :
    Attempt.tries (as ++ bs) p c := by
  obtain ⟨a, ha, hposition⟩ := h
  exact ⟨a, List.mem_append_right _ ha, hposition⟩

theorem Attempt.tries_under (i : Nat) (p : List Nat) (c : Construction) (h : Attempt.tries as p c) :
    (Attempt.tries (as.map (·.under i))).under i p c := by
  obtain ⟨a, ha, rfl, rfl⟩ := h
  exact ⟨a.under i, List.mem_map_of_mem ha, rfl, rfl⟩

/-- A node that is tried after what there is to try below it. -/
theorem configureSelf_becomes (h : n.Becomes (Attempt.tries as) n' move) :
    ∃ move', n.Becomes (Attempt.tries (as ++ [.root p n' path s]))
      (configureSelf (Provider.of (callWithin depth)) p n' path s).1.2 move' := by
  obtain ⟨⟨⟨r, k⟩, t⟩, hrun⟩ : ∃ ended,
      configureSelf (Provider.of (callWithin depth)) p n' path s = ended := ⟨_, rfl⟩
  obtain ⟨m, object, hpruned, rfl⟩ := configureSelf_prunes hrun
  rw [hrun]
  refine (h.mono Attempt.tries_left).prune (c := s.declared p.pluginClass.type) ?_ hpruned object
  exact ⟨.root p n' path s, List.mem_append_right _ (List.mem_singleton_self _), rfl, rfl⟩

/-- **Configuration** changes nodes only where they are tried. -/
theorem configuration_becomes (depth : Nat) : ConfigurationCases (Provider.of (callWithin depth))
    (fun n _ _ as ended => (∀ object, ended.1.1 = .ok object → ended.1.2.object = object) ∧
      ∃ move, n.Becomes (Attempt.tries as) ended.1.2 move)
    (fun i children _ _ as ended => Node.BecomeAll (Attempt.tries as) i children ended.1.2) where
  untyped n _ _ _ := ⟨by rintro object ⟨⟩, some, .stay _ n⟩
  deferred n p path s _ _ :=
    ⟨((configureSelf_tried _ p n path s).settles (Provider.warns_of_callWithin depth)).2.1,
      configureSelf_becomes (.stay (Attempt.tries []) n)⟩
  passed n p path s _ _ as children t h := by
    obtain ⟨move, hbelow⟩ := h.below
    exact ⟨((configureSelf_tried _ p _ path t).settles (Provider.warns_of_callWithin depth)).2.1,
      configureSelf_becomes hbelow⟩
  stopped n _ _ _ _ _ _ _ _ _ h := ⟨by rintro object ⟨⟩, h.below⟩
  nil i _ _ := .stay _ i []
  skipped i child _ _ _ _ _ _ _ _ h := .cons (.stay _ child) h
  stops i _ rest _ _ _ _ _ _ _ h := by
    obtain ⟨-, move, hchild⟩ := h
    exact .cons (hchild.mono (Attempt.tries_under i)) (.stay _ (i + 1) rest)
  cons i _ _ _ _ _ _ _ object child' _ _ _ _ h hrest := by
    obtain ⟨hobject, move, hchild⟩ := h
    have hsame : { child' with object } = child' := by
      rw [← show child'.object = object from hobject object rfl]
      cases child'
      rfl
    rw [hsame]
    exact .cons (hchild.mono fun p c hc => Attempt.tries_left _ c (Attempt.tries_under i p c hc))
      (hrest.mono Attempt.tries_right)

end

end ComponentAssembly

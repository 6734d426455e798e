import ComponentAssembly.Injector.Acyclic
import Mathlib.Data.List.Chain
import Mathlib.Data.List.Perm.Subperm
import Mathlib.Data.List.TakeWhile
import Mathlib.Logic.Relation

/-!
# The static check finds exactly the cycles

The check walks a graph of sites: a key together with the construction that is to build it.  An
edge (`State.Edge`) leads from a site to each eager dependency that the check goes on with.

    s.checkAcyclic key c returns or names a `CycleFrom`, never runs out of depth
    s.Uniform (key, c) → (s.checkAcyclic key c = .ok () ↔ s.AcyclicFrom (key, c))

both in `checkAcyclic_decides`.  One statement about the walk carries it (`follow_ends`): from a
path of distinct keys and a set of verified keys from which nothing but finite descents start, the
walk either ends in a larger such set or closes a cycle on its path.
-/

namespace ComponentAssembly

open Relation

/-! ## Chains on a path -/

@[simp]
theorem cycleChain_eq_none_iff {path : List Key} {key : Key} :
    cycleChain path key = none ↔ key ∉ path := by
  unfold cycleChain
  constructor
  · intro h hmem
    cases hd : path.dropWhile (· != key) with
    | nil =>
      have := List.dropWhile_eq_nil_iff.mp hd key hmem
      simp at this
    | cons k rest =>
      rw [hd] at h
      cases h
  · intro h
    have hd : path.dropWhile (· != key) = [] :=
      List.dropWhile_eq_nil_iff.mpr fun k hk => by
        simp only [bne_iff_ne, ne_eq]
        rintro rfl
        exact h hk
    rw [hd]

theorem cycleChain_eq_some {path chain : List Key} {key : Key} (h : cycleChain path key = some chain) :
    key ∈ path ∧ chain = path.dropWhile (· != key) ++ [key] := by
  constructor
  · by_contra hmem
    rw [cycleChain_eq_none_iff.mpr hmem] at h
    cases h
  · unfold cycleChain at h
    split at h
    · cases h
    · simpa using h.symm

namespace Assemble

variable {α : Type} {s : State} {key : Key}

/-- A key in progress is not entered again. -/
theorem withGuard_circular {chain : List Key} (h : cycleChain s.inProgress key = some chain)
    (step : Assemble α) : withGuard key step s = (.error (.error (.circularDependency chain)), s) := by
  simp only [withGuard, ExceptT.mk, h]

/-- A key that is not in progress is so while the step runs. -/
theorem withGuard_entered (h : cycleChain s.inProgress key = none) (step : Assemble α) :
    withGuard key step s =
      let r := step { s with inProgress := s.inProgress ++ [key] }
      (r.1, { r.2 with inProgress := r.2.inProgress.take s.inProgress.length }) := by
  simp only [withGuard, ExceptT.mk, h]
  rfl

end Assemble

namespace State

/-! ## What the check looks at -/

/-- The check goes on alike where the same keys are bound on request. -/
theorem checkedMaker_congr {s t : State}
    (hexplicit : ∀ key, t.tables.isExplicit key = s.tables.isExplicit key)
    (hconstructions : t.tables.constructions = s.tables.constructions) (p : InjectionPoint) :
    t.checkedMaker p = s.checkedMaker p := by
  unfold checkedMaker Tables.construction?
  rw [funext hexplicit, hconstructions]

theorem checkAcyclic_congr {s t : State} (hdeclarations : t.declarations = s.declarations)
    (hmaker : ∀ p, t.checkedMaker p = s.checkedMaker p) (key : Key) (c : Construction) :
    t.checkAcyclic key c = s.checkAcyclic key c := by
  have hdeclared : t.declared = s.declared := by
    funext type
    unfold declared
    rw [hdeclarations]
  have hfollow : ∀ depth path verified key c,
      t.follow depth path verified key c = s.follow depth path verified key c := by
    intro depth
    induction depth with
    | zero => exact fun _ _ _ _ => rfl
    | succ depth ih =>
      intro path verified key c
      unfold follow
      simp only [hmaker, hdeclared, ih]
  unfold checkAcyclic declaredKeys
  rw [hdeclarations, hfollow]

/-! ## The graph of the check -/

/-- A key and the construction that is to build it. -/
abbrev Site := Key × Construction

/-- The check goes on from a site to each eager dependency that it finds a construction for. -/
def Edge (s : State) (u v : Site) : Prop :=
  ∃ p ∈ u.2.eagerPoints, ∃ maker, s.checkedMaker p = some maker ∧ v = (p.key, s.declared maker)

/-- Sites that close a cycle: edges lead from each to the next, all are reached from the root, and
the last has the key of the first; no other key is there twice. -/
structure CycleFrom (s : State) (root : Site) (sites : List Site) : Prop where
  edges : sites.IsChain s.Edge
  reached : ∀ u ∈ sites, ReflTransGen s.Edge root u
  long : 2 ≤ sites.length
  closed : (sites.map (·.1)).head? = (sites.map (·.1)).getLast?
  distinct : (sites.map (·.1)).dropLast.Nodup

def AcyclicFrom (s : State) (root : Site) : Prop :=
  ∀ u, ReflTransGen s.Edge root u → ¬ TransGen s.Edge u u

/-- Whichever way a type is reached, it is built by one construction. -/
def Uniform (s : State) (root : Site) : Prop :=
  ∀ u v, ReflTransGen s.Edge root u → ReflTransGen s.Edge root v → u.1.type = v.1.type → u.2 = v.2

def declaredPoints (s : State) : List InjectionPoint :=
  s.declarations.flatMap (·.2.points)

theorem points_declared_subset (s : State) (type : TypePath) :
    (s.declared type).points ⊆ s.declaredPoints := by
  intro p hp
  unfold declared at hp
  split at hp
  · next t c hfind =>
    exact List.mem_flatMap.mpr ⟨(t, c), List.mem_of_find?_eq_some hfind, hp⟩
  · simp [Construction.points, Construction.plain] at hp

theorem keys_declared_subset (s : State) (type : TypePath) :
    (s.declared type).keys ⊆ s.declaredKeys := by
  have hkeys : s.declaredKeys = s.declaredPoints.map (·.key) := by
    simp [declaredKeys, declaredPoints, Construction.keys, List.map_flatMap]
  rw [hkeys]
  exact List.map_subset _ (s.points_declared_subset type)

/-- Every construction that a point carries or that is registered is the one of its type. -/
structure BuiltBy (s : State) (maker : TypePath → TypePath) : Prop where
  carried : ∀ p ∈ s.declaredPoints, ∀ m ∈ p.construction, m = maker p.key.type
  registered : ∀ type, ∀ m ∈ s.tables.construction? type, m = maker type

theorem BuiltBy.of_checkedMaker {s : State} {maker : TypePath → TypePath} (h : s.BuiltBy maker)
    {p : InjectionPoint} (hp : p ∈ s.declaredPoints) {m : TypePath}
    (hm : s.checkedMaker p = some m) : m = maker p.key.type := by
  unfold checkedMaker at hm
  split at hm
  · cases hm
  · rcases Option.or_eq_some_iff.mp hm with hm | ⟨-, hm⟩
    · exact h.carried p hp m hm
    · exact h.registered _ m hm

/-- Types that are all built by what they declare themselves. -/
theorem BuiltBy.of_self {s : State}
    (hcarried : ∀ p ∈ s.declaredPoints, ∀ m ∈ p.construction, m = p.key.type)
    (hregistered : ∀ e ∈ s.tables.constructions, e.2 = e.1) : s.BuiltBy id where
  carried := hcarried
  registered := by
    intro type m hm
    obtain ⟨e, hfind, rfl⟩ := Option.map_eq_some_iff.mp hm
    have htype : e.1 = type := by simpa using List.find?_some hfind
    exact (hregistered e (List.mem_of_find?_eq_some hfind)).trans htype

/-- Where each type has one construction, the check meets no other. -/
theorem BuiltBy.uniform {s : State} {maker : TypePath → TypePath} (h : s.BuiltBy maker) (key : Key) :
    s.Uniform (key, s.declared (maker key.type)) := by
  have hbuilt : ∀ u, ReflTransGen s.Edge (key, s.declared (maker key.type)) u →
      u.2 = s.declared (maker u.1.type) := by
    intro u hu
    induction hu with
    | refl => rfl
    | tail _ hedge ih =>
      obtain ⟨p, hp, m, hm, rfl⟩ := hedge
      rw [ih] at hp
      have := h.of_checkedMaker (s.points_declared_subset _ (List.mem_filter.mp hp).1) hm
      exact congrArg s.declared this
  intro u v hu hv htype
  rw [hbuilt u hu, hbuilt v hv, htype]

/-- All keys that can be reached from a site are among these. -/
def keysFrom (s : State) (root : Site) : List Key :=
  root.1 :: root.2.keys ++ s.declaredKeys

theorem key_mem_keys {c : Construction} {p : InjectionPoint} (h : p ∈ c.eagerPoints) :
    p.key ∈ c.keys :=
  List.mem_map.mpr ⟨p, (List.mem_filter.mp h).1, rfl⟩

theorem keysFrom_of_reached {s : State} {root u : Site} (h : ReflTransGen s.Edge root u) :
    u.1 ∈ s.keysFrom root ∧ u.2.keys ⊆ s.keysFrom root := by
  induction h with
  | refl =>
    refine ⟨by simp [keysFrom], fun k hk => ?_⟩
    simp [keysFrom, hk]
  | tail _ hedge ih =>
    obtain ⟨p, hp, maker, -, rfl⟩ := hedge
    refine ⟨ih.2 (key_mem_keys hp), fun k hk => ?_⟩
    have := s.keys_declared_subset maker hk
    simp [keysFrom, this]

/-! ## The walk -/

/-- A path that the walk has taken: distinct keys, each an edge on from the one before. -/
structure Trail (s : State) (root : Site) (sites : List Site) (u : Site) : Prop where
  edges : (sites ++ [u]).IsChain s.Edge
  reached : ∀ v ∈ sites ++ [u], ReflTransGen s.Edge root v
  distinct : (sites.map (·.1)).Nodup

theorem Trail.nil (s : State) (root : Site) : s.Trail root [] root where
  edges := by simp
  reached := by
    intro v hv
    obtain rfl : v = root := by simpa using hv
    exact .refl
  distinct := by simp

theorem Trail.reach {s : State} {root u : Site} {sites : List Site} (t : s.Trail root sites u) :
    ReflTransGen s.Edge root u :=
  t.reached u (by simp)

theorem Trail.snoc {s : State} {root u v : Site} {sites : List Site} (t : s.Trail root sites u)
    (hfresh : u.1 ∉ sites.map (·.1)) (hedge : s.Edge u v) : s.Trail root (sites ++ [u]) v where
  edges := by
    rw [List.isChain_append]
    refine ⟨t.edges, by simp, ?_⟩
    intro x hx y hy
    simp only [List.getLast?_append, List.getLast?_singleton, Option.some_or, Option.mem_def,
      Option.some.injEq] at hx
    simp only [List.head?_cons, Option.mem_def, Option.some.injEq] at hy
    subst hx hy
    exact hedge
  reached := by
    intro w hw
    rcases List.mem_append.mp hw with hw | hw
    · exact t.reached w hw
    · obtain rfl : w = v := by simpa using hw
      exact t.reach.tail hedge
  distinct := by
    rw [List.map_append, List.nodup_append]
    refine ⟨t.distinct, by simp, ?_⟩
    rintro a ha b hb rfl
    simp only [List.map_cons, List.map_nil, List.mem_singleton] at hb
    exact hfresh (hb ▸ ha)

/-- A path with distinct keys is no longer than there are keys to be reached. -/
theorem Trail.length_le {s : State} {root u : Site} {sites : List Site} (t : s.Trail root sites u) :
    sites.length ≤ (s.keysFrom root).length := by
  have hsub : sites.map (·.1) ⊆ s.keysFrom root := by
    intro k hk
    obtain ⟨v, hv, rfl⟩ := List.mem_map.mp hk
    exact (keysFrom_of_reached (t.reached v (List.mem_append_left _ hv))).1
  simpa using (t.distinct.subperm hsub).length_le

/-- Coming back to a key on the path closes a cycle. -/
theorem Trail.cycle {s : State} {root u : Site} {sites : List Site} (t : s.Trail root sites u)
    {chain : List Key} (h : cycleChain (sites.map (·.1)) u.1 = some chain) :
    ∃ cycle, chain = cycle.map (·.1) ∧ s.CycleFrom root cycle := by
  obtain ⟨hmem, rfl⟩ := cycleChain_eq_some h
  have hmap : (sites.map (·.1)).dropWhile (· != u.1) =
      (sites.dropWhile fun v => v.1 != u.1).map (·.1) := by
    rw [List.dropWhile_map]
    rfl
  have hsuffix : (sites.dropWhile fun v => v.1 != u.1) ++ [u] <:+ sites ++ [u] := by
    obtain ⟨front, hfront⟩ := List.dropWhile_suffix (fun v : Site => v.1 != u.1) (l := sites)
    exact ⟨front, by rw [← List.append_assoc, hfront]⟩
  obtain ⟨first, rest, hfirst⟩ : ∃ first rest,
      (sites.dropWhile fun v => v.1 != u.1) = first :: rest := by
    cases hd : sites.dropWhile fun v => v.1 != u.1 with
    | cons first rest => exact ⟨first, rest, rfl⟩
    | nil =>
      obtain ⟨v, hv, hvu⟩ := List.mem_map.mp hmem
      have := List.dropWhile_eq_nil_iff.mp hd v hv
      simp [hvu] at this
  have hkey : first.1 = u.1 := by
    have := List.head_dropWhile_not (fun v : Site => v.1 != u.1) (l := sites) (by simp [hfirst])
    simpa [hfirst] using this
  refine ⟨(sites.dropWhile fun v => v.1 != u.1) ++ [u], by simp [hmap], ?_, ?_, ?_, ?_, ?_⟩
  · exact t.edges.suffix hsuffix
  · exact fun v hv => t.reached v (hsuffix.subset hv)
  · simp [hfirst]
  · rw [List.map_append, List.map_singleton, List.getLast?_append, hfirst]
    simp [hkey]
  · simp only [List.map_append, List.map_cons, List.map_nil, List.dropLast_concat]
    exact t.distinct.sublist ((List.dropWhile_sublist _).map _)

/-- A key that the walk has left without finding a cycle: if types are built alike, every descent
from it is finite. -/
def Cleared (s : State) (root : Site) (key : Key) : Prop :=
  s.Uniform root → ∀ c, ReflTransGen s.Edge root (key, c) → Acc (fun v u => s.Edge u v) (key, c)

/-- How the walk ends: all keys it was to look at are cleared, or it has closed a cycle. -/
def FollowEnds (s : State) (root : Site) (goal : List Key) : Except Stop (List Key) → Prop
  | .ok verified => goal ⊆ verified ∧ ∀ k ∈ verified, s.Cleared root k
  | .error (.error (.circularDependency chain)) =>
    ∃ cycle, chain = cycle.map (·.1) ∧ s.CycleFrom root cycle
  | .error _ => False

/-- A walk that fails does so whatever it was to look at. -/
theorem FollowEnds.of_error {s : State} {root : Site} {goal goal' : List Key} {stop : Stop}
    (h : s.FollowEnds root goal (.error stop)) : s.FollowEnds root goal' (.error stop) := by
  cases stop with
  | exhausted => exact h
  | error cause =>
    cases cause <;> exact h

/-- The keys of the points that the check goes on with. -/
def targets (s : State) (points : List InjectionPoint) : List Key :=
  (points.filter fun p => (s.checkedMaker p).isSome).map (·.key)

/-- A site all of whose targets are cleared is cleared. -/
theorem cleared_of_targets {s : State} {root u : Site} (hreach : ReflTransGen s.Edge root u)
    {verified : List Key} (hgoal : s.targets u.2.eagerPoints ⊆ verified)
    (hverified : ∀ k ∈ verified, s.Cleared root k) : s.Cleared root u.1 := by
  intro huniform c hc
  obtain rfl : c = u.2 := huniform (u.1, c) u hc hreach rfl
  refine Acc.intro _ fun v hedge => ?_
  have hv := hreach.tail hedge
  obtain ⟨p, hp, maker, hmaker, rfl⟩ := hedge
  have hmem : p.key ∈ s.targets u.2.eagerPoints :=
    List.mem_map.mpr ⟨p, List.mem_filter.mpr ⟨hp, by simp [hmaker]⟩, rfl⟩
  exact hverified p.key (hgoal hmem) huniform _ hv

/-- A site is left after its points. -/
theorem FollowEnds.close {s : State} {root u : Site} {verified : List Key}
    {result : Except Stop (List Key)} (hreach : ReflTransGen s.Edge root u)
    (h : s.FollowEnds root (verified ++ s.targets u.2.eagerPoints) result) :
    s.FollowEnds root (u.1 :: verified) (do let verified ← result; return u.1 :: verified) := by
  cases result with
  | error stop => exact h.of_error
  | ok final =>
    obtain ⟨hsub, hfinal⟩ := h
    have hcleared := cleared_of_targets hreach
      (fun k hk => hsub (List.mem_append_right _ hk)) hfinal
    refine ⟨List.cons_subset_cons _ fun k hk => hsub (List.mem_append_left _ hk), ?_⟩
    intro k hk
    rcases List.mem_cons.mp hk with rfl | hk
    · exact hcleared
    · exact hfinal k hk

/-- The walk from the points of a site, given what a walk from each of them does. -/
theorem foldlM_ends {s : State} {root : Site}
    {step : List Key → InjectionPoint → Except Stop (List Key)} (points : List InjectionPoint)
    (hskip : ∀ p ∈ points, s.checkedMaker p = none → ∀ verified, step verified p = .ok verified)
    (hstep : ∀ p ∈ points, (s.checkedMaker p).isSome → ∀ verified,
      (∀ k ∈ verified, s.Cleared root k) → s.FollowEnds root (p.key :: verified) (step verified p))
    (verified : List Key) (hverified : ∀ k ∈ verified, s.Cleared root k) :
    s.FollowEnds root (verified ++ s.targets points) (points.foldlM step verified) := by
  induction points generalizing verified with
  | nil => exact ⟨by simp [targets], hverified⟩
  | cons p rest ih =>
    have ih := fun verified hverified => ih (fun q hq => hskip q (List.mem_cons_of_mem _ hq))
      (fun q hq => hstep q (List.mem_cons_of_mem _ hq)) verified hverified
    rw [List.foldlM_cons]
    cases hmaker : s.checkedMaker p with
    | none =>
      rw [hskip p List.mem_cons_self hmaker verified]
      have htargets : s.targets (p :: rest) = s.targets rest := by simp [targets, hmaker]
      rw [htargets]
      exact ih verified hverified
    | some maker =>
      have hone := hstep p List.mem_cons_self (by simp [hmaker]) verified hverified
      have htargets : s.targets (p :: rest) = p.key :: s.targets rest := by simp [targets, hmaker]
      cases hres : step verified p with
      | error stop =>
        rw [hres] at hone
        exact hone.of_error
      | ok after =>
        rw [hres] at hone
        obtain ⟨hsub, hafter⟩ := hone
        have hrest := ih after hafter
        show s.FollowEnds root _ (rest.foldlM step after)
        cases hfinal : rest.foldlM step after with
        | error stop =>
          rw [hfinal] at hrest
          exact hrest.of_error
        | ok final =>
          rw [hfinal] at hrest
          refine ⟨fun k hk => ?_, hrest.2⟩
          rw [htargets] at hk
          rcases List.mem_append.mp hk with hk | hk
          · exact hrest.1 (List.mem_append_left _ (hsub (List.mem_cons_of_mem _ hk)))
          · rcases List.mem_cons.mp hk with rfl | hk
            · exact hrest.1 (List.mem_append_left _ (hsub List.mem_cons_self))
            · exact hrest.1 (List.mem_append_right _ hk)

/-- **The walk.**  On a path it has depth left for, the walk clears what it was asked for or closes
a cycle. -/
theorem follow_ends (s : State) (root : Site) (depth : Nat) :
    ∀ (sites : List Site) (u : Site) (verified : List Key), s.Trail root sites u →
      (∀ k ∈ verified, s.Cleared root k) → (s.keysFrom root).length < depth + sites.length →
      s.FollowEnds root (u.1 :: verified) (s.follow depth (sites.map (·.1)) verified u.1 u.2) := by
  induction depth with
  | zero =>
    intro sites u verified htrail _ hdepth
    have := htrail.length_le
    omega
  | succ depth ih =>
    intro sites u verified htrail hverified hdepth
    rw [follow]
    split
    · next chain hchain => exact htrail.cycle hchain
    · next hchain =>
      have hfresh := cycleChain_eq_none_iff.mp hchain
      split
      · next hmem => exact ⟨List.cons_subset.mpr ⟨hmem, fun _ h => h⟩, hverified⟩
      · refine (foldlM_ends u.2.eagerPoints ?_ ?_ verified hverified).close htrail.reach
        · intro p _ hnone verified
          simp only [hnone]
          rfl
        · intro p hp hsome verified hverified
          obtain ⟨maker, hmaker⟩ := Option.isSome_iff_exists.mp hsome
          have htrail' := htrail.snoc hfresh ⟨p, hp, maker, hmaker, rfl⟩
          have := ih (sites ++ [u]) (p.key, s.declared maker) verified htrail' hverified (by
            simp only [List.length_append, List.length_singleton]
            omega)
          simpa [hmaker] using this

/-! ## What the check decides -/

/-- What only finite descents start from is not on a cycle. -/
theorem not_transGen_of_acc {α : Type} {r : α → α → Prop} {a : α} (h : Acc (fun b a => r a b) a) :
    ¬ TransGen r a a := by
  induction h with
  | intro a _ ih =>
    intro hcycle
    obtain ⟨b, hab, hba⟩ := TransGen.head'_iff.mp hcycle
    exact ih b hab (TransGen.tail' hba hab)

theorem acyclicFrom_of_acc {s : State} {root : Site} (h : Acc (fun v u => s.Edge u v) root) :
    s.AcyclicFrom root := by
  intro u hu
  have hacc : Acc (fun v u => s.Edge u v) u := by
    induction hu with
    | refl => exact h
    | tail _ hedge ih => exact ih.inv hedge
  exact not_transGen_of_acc hacc

/-- If types are built alike, sites that close a cycle are one: the last site is the first. -/
theorem CycleFrom.not_acyclicFrom {s : State} {root : Site} {sites : List Site}
    (h : s.CycleFrom root sites) (huniform : s.Uniform root) : ¬ s.AcyclicFrom root := by
  intro hacyclic
  match sites, h with
  | first :: second :: rest, h =>
    have hlast : ((second :: rest).getLast (by simp)).1 = first.1 := by
      have := h.closed
      rw [List.getLast?_map, List.getLast?_cons_cons, List.getLast?_eq_some_getLast (by simp)] at this
      simpa using this.symm
    have hmem : (second :: rest).getLast (by simp) ∈ first :: second :: rest :=
      List.mem_cons_of_mem _ (List.getLast_mem _)
    have hsame : (second :: rest).getLast (by simp) = first :=
      Prod.ext hlast (huniform _ _ (h.reached _ hmem) (h.reached _ List.mem_cons_self) (by rw [hlast]))
    obtain ⟨hedge, hchain⟩ := List.isChain_cons_cons.mp h.edges
    have hback := List.relationReflTransGen_of_exists_isChain _ hchain (by simp)
    rw [hsame] at hback
    exact hacyclic first (h.reached _ List.mem_cons_self) (TransGen.head' hedge hback)
  | [_], h => exact absurd h.long (by simp)
  | [], h => exact absurd h.long (by simp)

/-- The check returns or names a cycle; it has depth enough. -/
theorem checkAcyclic_total (s : State) (key : Key) (c : Construction) :
    (s.checkAcyclic key c = .ok () ∧ s.Cleared (key, c) key) ∨
      ∃ cycle, s.checkAcyclic key c = .error (.error (.circularDependency (cycle.map (·.1)))) ∧
        s.CycleFrom (key, c) cycle := by
  have hends := s.follow_ends (key, c) (s.declaredKeys.length + c.keys.length + 2) [] (key, c) []
    (.nil s (key, c)) (by simp) (by simp [keysFrom]; omega)
  simp only [List.map_nil] at hends
  unfold checkAcyclic
  generalize s.follow _ [] [] key c = result at hends ⊢
  match result, hends with
  | .ok verified, ⟨hsub, hcleared⟩ => exact .inl ⟨rfl, hcleared key (hsub List.mem_cons_self)⟩
  | .error (.error (.circularDependency chain)), ⟨cycle, hchain, hcycle⟩ =>
    exact .inr ⟨cycle, by rw [hchain]; rfl, hcycle⟩

/-- **The check decides reachability of a cycle.**  It returns, or it names the keys of a cycle that
can be reached; it always has depth enough.  If types are built alike it returns exactly when no
cycle can be reached. -/
theorem checkAcyclic_decides (s : State) (key : Key) (c : Construction) :
    (s.checkAcyclic key c = .ok () ∨
      ∃ cycle, s.checkAcyclic key c = .error (.error (.circularDependency (cycle.map (·.1)))) ∧
        s.CycleFrom (key, c) cycle) ∧
    (s.Uniform (key, c) → (s.checkAcyclic key c = .ok () ↔ s.AcyclicFrom (key, c))) := by
  rcases s.checkAcyclic_total key c with ⟨hok, hcleared⟩ | ⟨cycle, herror, hcycle⟩
  · refine ⟨.inl hok, fun huniform => ⟨fun _ => ?_, fun _ => hok⟩⟩
    exact acyclicFrom_of_acc (hcleared huniform c .refl)
  · refine ⟨.inr ⟨cycle, herror, hcycle⟩, fun huniform => ⟨fun h => ?_, fun h => ?_⟩⟩
    · rw [herror] at h
      cases h
    · exact absurd h (hcycle.not_acyclicFrom huniform)

/-- Two sides that share a base; one of them can ask for the top later. -/
def diamond : State where
  declarations :=
    [(⟨"Top"⟩, { Construction.plain ⟨"Top"⟩ with
        parameters := [.injectable "left" ⟨"Left"⟩, .injectable "right" ⟨"Right"⟩] }),
      (⟨"Left"⟩, { Construction.plain ⟨"Left"⟩ with parameters := [.injectable "base" ⟨"Base"⟩] }),
      (⟨"Right"⟩, { Construction.plain ⟨"Right"⟩ with
        parameters := [.injectable "base" ⟨"Base"⟩,
          { InjectionPoint.injectable "top" ⟨"Top"⟩ with deferred := true }] })]

theorem diamond_builtBy : diamond.BuiltBy id :=
  .of_self (by decide +kernel) (by decide)

/-- The check does not take a shared dependency, or a cycle that is put off, for a cycle. -/
theorem checkAcyclic_diamond :
    diamond.Uniform (.of ⟨"Top"⟩, diamond.declared ⟨"Top"⟩) ∧
      diamond.checkAcyclic (.of ⟨"Top"⟩) (diamond.declared ⟨"Top"⟩) = .ok () ∧
      diamond.AcyclicFrom (.of ⟨"Top"⟩, diamond.declared ⟨"Top"⟩) :=
  have huniform := diamond_builtBy.uniform (.of ⟨"Top"⟩)
  have hok : diamond.checkAcyclic (.of ⟨"Top"⟩) (diamond.declared ⟨"Top"⟩) = .ok () := by
    decide +kernel
  ⟨huniform, hok, ((checkAcyclic_decides _ _ _).2 huniform).mp hok⟩

end State

end ComponentAssembly

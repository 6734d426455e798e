import ComponentAssembly.Module
import Mathlib.Data.List.Basic
import Mathlib.Data.List.Forall2

/-!
# Which keys the methods of a module share

The methods of a module are compared in pairs, the earlier one of a pair first:

    m.clash = none          no two methods at different positions share a key
    m.clash = some cause    the first pair that does, in the order of its positions, and the first
                            key of its second method that the first one has too

So the answer is exact (`Module.clash_exact`).  It depends on the keys of each method in the order in
which they first appear: what a method repeats is no conflict, and does not change the complaint.
-/

namespace ComponentAssembly

/-- A key is the first of a list, in the order of this list, that is among some keys. -/
structure FirstShared (keys list : List Key) (key : Key) : Prop where
  mem : key ∈ keys
  first : ∃ before after, list = before ++ key :: after ∧ ∀ earlier ∈ before, earlier ∉ keys

theorem firstShared_iff {m other : FactoryMethod} {key : Key} :
    FirstShared m.keys other.keys key ↔ other.keys.find? m.hasKey = some key := by
  simp only [List.find?_eq_some_iff_append, FactoryMethod.hasKey, List.contains_iff_mem,
    Bool.not_eq_true', ← Bool.not_eq_true]
  exact ⟨fun h => ⟨h.mem, h.first⟩, fun h => ⟨h.1, h.2⟩⟩

namespace Module

/-! ## One method and those after it -/

theorem find?_hasKey_eq_none_iff {m other : FactoryMethod} :
    other.keys.find? m.hasKey = none ↔ m.keys.Disjoint other.keys := by
  simp only [List.find?_eq_none, FactoryMethod.hasKey, List.contains_iff_mem]
  exact ⟨fun h key hkey hother => h key hother hkey, fun h key hother hkey => h hkey hother⟩

@[simp]
theorem firstClash_eq_none_iff {m : FactoryMethod} {methods : List FactoryMethod} :
    firstClash m methods = none ↔ ∀ other ∈ methods, m.keys.Disjoint other.keys := by
  induction methods with
  | nil => simp [firstClash]
  | cons other rest ih =>
    rw [List.forall_mem_cons, ← find?_hasKey_eq_none_iff, ← ih, firstClash]
    cases other.keys.find? m.hasKey with
    | none => simp
    | some key => simp

/-- The method that is found is the first that shares a key. -/
theorem firstClash_eq_some {m other : FactoryMethod} {key : Key} {methods : List FactoryMethod}
    (h : firstClash m methods = some (other, key)) :
    ∃ j, methods[j]? = some other ∧ FirstShared m.keys other.keys key ∧
      ∀ (j' : Nat) (earlier : FactoryMethod), j' < j → methods[j']? = some earlier →
        m.keys.Disjoint earlier.keys := by
  induction methods with
  | nil => cases h
  | cons next rest ih =>
    unfold firstClash at h
    cases hfind : next.keys.find? m.hasKey with
    | some shared =>
      rw [hfind] at h
      cases h
      exact ⟨0, rfl, firstShared_iff.mpr hfind, fun j' _ hj' => absurd hj' (Nat.not_lt_zero j')⟩
    | none =>
      rw [hfind] at h
      obtain ⟨j, hj, hshared, hearlier⟩ := ih h
      refine ⟨j + 1, hj, hshared, fun j' earlier hlt hj' => ?_⟩
      cases j' with
      | zero =>
        cases hj'
        exact find?_hasKey_eq_none_iff.mp hfind
      | succ j' => exact hearlier j' earlier (Nat.lt_of_succ_lt_succ hlt) hj'

/-! ## All pairs -/

@[simp]
theorem duplicate_eq_none_iff {name : String} {methods : List FactoryMethod} :
    duplicate name methods = none ↔
      methods.Pairwise fun first second => first.keys.Disjoint second.keys := by
  induction methods with
  | nil => simp [duplicate]
  | cons m rest ih =>
    rw [List.pairwise_cons, ← firstClash_eq_none_iff, ← ih, duplicate]
    cases firstClash m rest with
    | none => simp
    | some clash => simp

/-- Methods that share keys with none after them, or with none before them, share keys with none at
another position. -/
theorem pairwise_disjoint_iff {methods : List FactoryMethod} :
    (methods.Pairwise fun first second => first.keys.Disjoint second.keys) ↔
      ∀ (i j : Nat) (first second : FactoryMethod), i ≠ j → methods[i]? = some first →
        methods[j]? = some second → first.keys.Disjoint second.keys := by
  rw [List.pairwise_iff_getElem]
  constructor
  · intro h i j first second hne hfirst hsecond
    obtain ⟨hi, rfl⟩ := List.getElem?_eq_some_iff.mp hfirst
    obtain ⟨hj, rfl⟩ := List.getElem?_eq_some_iff.mp hsecond
    rcases Nat.lt_or_gt_of_ne hne with hlt | hgt
    · exact h i j hi hj hlt
    · exact fun key hkey hkey' => h j i hj hi hgt hkey' hkey
  · intro h i j hi hj hlt
    exact h i j _ _ (Nat.ne_of_lt hlt) (List.getElem?_eq_getElem hi) (List.getElem?_eq_getElem hj)

/-- A pair of positions stands before another. -/
def PairBefore (i' j' i j : Nat) : Prop :=
  i' < i ∨ i' = i ∧ j' < j

/-- The first pair of methods that share a key: `key` is the first of the second method that the first
one has too, and the methods of no pair before share a key. -/
structure FirstClash (methods : List FactoryMethod) (i j : Nat) (first second : FactoryMethod)
    (key : Key) : Prop where
  lt : i < j
  getFirst : methods[i]? = some first
  getSecond : methods[j]? = some second
  shared : FirstShared first.keys second.keys key
  before : ∀ (i' j' : Nat) (first' second' : FactoryMethod), i' < j' → PairBefore i' j' i j →
    methods[i']? = some first' → methods[j']? = some second' → first'.keys.Disjoint second'.keys

theorem duplicate_eq_some {name : String} {methods : List FactoryMethod} {cause : AssemblyError}
    (h : duplicate name methods = some cause) :
    ∃ i j first second key, FirstClash methods i j first second key ∧
      cause = .duplicateFactory name key first.method second.method := by
  induction methods with
  | nil => cases h
  | cons m rest ih =>
    unfold duplicate at h
    cases hclash : firstClash m rest with
    | some clash =>
      obtain ⟨other, key⟩ := clash
      rw [hclash] at h
      cases h
      obtain ⟨j, hj, hshared, hearlier⟩ := firstClash_eq_some hclash
      refine ⟨0, j + 1, m, other, key, ⟨Nat.succ_pos j, rfl, hj, hshared, ?_⟩, rfl⟩
      intro i' j' first' second' hlt hbefore hfirst hsecond
      rcases hbefore with hneg | ⟨rfl, hj'⟩
      · exact absurd hneg (Nat.not_lt_zero i')
      · cases hfirst
        cases j' with
        | zero => exact absurd hlt (Nat.lt_irrefl 0)
        | succ j' => exact hearlier j' second' (Nat.lt_of_succ_lt_succ hj') hsecond
    | none =>
      rw [hclash] at h
      obtain ⟨i, j, first, second, key, hfound, hcause⟩ := ih h
      refine ⟨i + 1, j + 1, first, second, key,
        ⟨Nat.succ_lt_succ hfound.lt, hfound.getFirst, hfound.getSecond, hfound.shared, ?_⟩, hcause⟩
      intro i' j' first' second' hlt hbefore hfirst hsecond
      cases j' with
      | zero => exact absurd hlt (Nat.not_lt_zero i')
      | succ j' =>
        cases i' with
        | zero =>
          cases hfirst
          exact firstClash_eq_none_iff.mp hclash second' (List.mem_of_getElem? hsecond)
        | succ i' =>
          refine hfound.before i' j' first' second' (Nat.lt_of_succ_lt_succ hlt) ?_ hfirst hsecond
          unfold PairBefore at hbefore ⊢
          omega

namespace FirstClash

variable {methods : List FactoryMethod} {i j i' j' : Nat} {first second first' second' : FactoryMethod}
  {key key' : Key}

theorem mem_second (h : FirstClash methods i j first second key) : key ∈ second.keys := by
  obtain ⟨before, after, hsplit, -⟩ := h.shared.first
  rw [hsplit]
  exact List.mem_append_right _ List.mem_cons_self

theorem not_disjoint (h : FirstClash methods i j first second key) :
    ¬ first.keys.Disjoint second.keys :=
  fun hdisjoint => hdisjoint h.shared.mem h.mem_second

theorem not_before (h : FirstClash methods i j first second key)
    (h' : FirstClash methods i' j' first' second' key') : ¬ PairBefore i j i' j' :=
  fun hbefore => h.not_disjoint (h'.before i j first second h.lt hbefore h.getFirst h.getSecond)

/-- There is one first pair, and one first key that it shares. -/
theorem unique (h : FirstClash methods i j first second key)
    (h' : FirstClash methods i' j' first' second' key') :
    first = first' ∧ second = second' ∧ key = key' := by
  have hbefore := h.not_before h'
  have hafter := h'.not_before h
  obtain ⟨rfl, rfl⟩ : i = i' ∧ j = j' := by
    unfold PairBefore at hbefore hafter
    omega
  obtain rfl : first = first' := Option.some.inj (h.getFirst.symm.trans h'.getFirst)
  obtain rfl : second = second' := Option.some.inj (h.getSecond.symm.trans h'.getSecond)
  have hkey := firstShared_iff.mp h.shared
  exact ⟨rfl, rfl, Option.some.inj (hkey.symm.trans (firstShared_iff.mp h'.shared))⟩

end FirstClash

theorem duplicate_eq_some_iff {name : String} {methods : List FactoryMethod} {cause : AssemblyError} :
    duplicate name methods = some cause ↔ ∃ i j first second key,
      FirstClash methods i j first second key ∧
        cause = .duplicateFactory name key first.method second.method := by
  refine ⟨duplicate_eq_some, ?_⟩
  rintro ⟨i, j, first, second, key, hfound, rfl⟩
  cases hcause : duplicate name methods with
  | none =>
    have hdisjoint := pairwise_disjoint_iff.mp (duplicate_eq_none_iff.mp hcause)
    exact absurd (hdisjoint i j first second (Nat.ne_of_lt hfound.lt) hfound.getFirst hfound.getSecond)
      hfound.not_disjoint
  | some cause =>
    obtain ⟨i', j', first', second', key', hfound', rfl⟩ := duplicate_eq_some hcause
    obtain ⟨rfl, rfl, rfl⟩ := hfound.unique hfound'
    rfl

/-! ## Repeated keys -/

/-- What is found first in a list does not depend on repeats. -/
theorem find?_eraseDups (p : Key → Bool) (keys : List Key) :
    keys.eraseDups.find? p = keys.find? p := by
  cases keys with
  | nil => rfl
  | cons key rest =>
    rw [List.eraseDups_cons, List.find?_cons, List.find?_cons]
    cases hkey : p key with
    | true => rfl
    | false =>
      -- the repeats of `key` that are left out are not looked for
      have hskips : (fun other => decide ((!other == key) = true ∧ p other = true)) = p := by
        funext other
        by_cases hother : other = key <;> simp [hother, hkey]
      dsimp only
      rw [find?_eraseDups p, List.find?_filter, hskips]
termination_by keys.length
decreasing_by exact Nat.lt_succ_of_le (List.length_filter_le _ _)

/-- Methods of one name, with the same keys but for repeats. -/
def SameKeys (x y : FactoryMethod) : Prop :=
  y.method = x.method ∧ y.keys.eraseDups = x.keys.eraseDups

theorem SameKeys.hasKey {x y : FactoryMethod} (h : SameKeys x y) : y.hasKey = x.hasKey := by
  funext key
  unfold FactoryMethod.hasKey
  rw [Bool.eq_iff_iff, List.contains_iff_mem, List.contains_iff_mem, ← List.mem_eraseDups, h.2,
    List.mem_eraseDups]

theorem SameKeys.find? {x y : FactoryMethod} (h : SameKeys x y) (p : Key → Bool) :
    y.keys.find? p = x.keys.find? p := by
  rw [← find?_eraseDups, h.2, find?_eraseDups]

theorem firstClash_same {x y : FactoryMethod} {xs ys : List FactoryMethod} (h : SameKeys x y)
    (hrest : List.Forall₂ SameKeys xs ys) :
    (firstClash y ys).map (Prod.map FactoryMethod.method id) =
      (firstClash x xs).map (Prod.map FactoryMethod.method id) := by
  induction hrest with
  | nil => rfl
  | @cons other other' _ _ hother _ ih =>
    unfold firstClash
    rw [h.hasKey, hother.find? x.hasKey]
    cases other.keys.find? x.hasKey with
    | none => exact ih
    | some key => simp [hother.1]

theorem duplicate_cons (name : String) (m : FactoryMethod) (rest : List FactoryMethod) :
    duplicate name (m :: rest) =
      (((firstClash m rest).map (Prod.map FactoryMethod.method id)).map fun (other, key) =>
        AssemblyError.duplicateFactory name key m.method other).or (duplicate name rest) := by
  rw [duplicate]
  cases firstClash m rest with
  | none => rfl
  | some clash => rfl

theorem duplicate_same (name : String) {xs ys : List FactoryMethod}
    (h : List.Forall₂ SameKeys xs ys) : duplicate name ys = duplicate name xs := by
  induction h with
  | nil => rfl
  | cons hfirst hrest ih =>
    rw [duplicate_cons, duplicate_cons, ih, firstClash_same hfirst hrest, hfirst.1]

/-! ## The answer -/

/-- **Shared keys are found exactly.**  Nothing is complained of exactly if the keys of no two methods
meet.  The complaint names the methods of the first pair whose keys meet, in their order, and the first
key of the second that the first has too.  Keys that a method repeats make no difference. -/
theorem clash_exact (m : Module) :
    (m.clash = none ↔ ∀ (i j : Nat) (first second : FactoryMethod), i ≠ j →
      m.methods[i]? = some first → m.methods[j]? = some second →
        first.keys.Disjoint second.keys) ∧
    (∀ cause, m.clash = some cause ↔ ∃ i j first second key,
      FirstClash m.methods i j first second key ∧
        cause = .duplicateFactory m.name key first.method second.method) ∧
    ∀ methods, List.Forall₂ SameKeys m.methods methods → { m with methods }.clash = m.clash :=
  ⟨duplicate_eq_none_iff.trans pairwise_disjoint_iff, fun _ => duplicate_eq_some_iff,
    fun _ h => duplicate_same m.name h⟩

end Module

end ComponentAssembly

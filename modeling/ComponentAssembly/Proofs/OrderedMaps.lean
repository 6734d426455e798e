import ComponentAssembly.Descriptor.Ordered
import Mathlib.Data.List.Pairwise

/-!
# Maps in the order of their keys

Setting a key changes what is found under that key and nothing else (`get?_set`), and keeps the keys
ascending (`ascending_set`).  An ascending map is told by what is found in it:

    m.Ascending → n.Ascending → (∀ key, m.get? key = n.get? key) → m = n          (Ordered.ext)
-/

namespace ComponentAssembly.Ordered

variable {ν : Type}

/-- The keys of a map ascend. -/
def Ascending (m : Ordered ν) : Prop :=
  m.Pairwise fun a b => a.1 < b.1

/-! ## Finding -/

@[simp]
theorem get?_cons (key k : String) (v : ν) (m : Ordered ν) :
    get? ((k, v) :: m) key = if key = k then some v else m.get? key := by
  by_cases h : key = k
  · simp [get?, h]
  · simp [get?, h, Ne.symm h]

theorem mem_of_get? {m : Ordered ν} {key : String} {v : ν} (h : m.get? key = some v) :
    (key, v) ∈ m := by
  induction m with
  | nil => cases h
  | cons entry rest ih =>
    obtain ⟨k, w⟩ := entry
    rw [get?_cons] at h
    split at h
    · next heq =>
      cases h
      rw [heq]
      exact List.mem_cons_self
    · exact List.mem_cons_of_mem _ (ih h)

theorem Ascending.get?_of_mem {m : Ordered ν} (hm : m.Ascending) {key : String} {v : ν}
    (h : (key, v) ∈ m) : m.get? key = some v := by
  induction m with
  | nil => cases h
  | cons entry rest ih =>
    obtain ⟨k, w⟩ := entry
    obtain ⟨hfirst, hrest⟩ := List.pairwise_cons.mp hm
    rw [get?_cons]
    rcases List.mem_cons.mp h with heq | hmem
    · cases heq
      exact if_pos rfl
    · have hlt : k < key := hfirst _ hmem
      rw [if_neg, ih hrest hmem]
      rintro rfl
      exact String.lt_irrefl _ hlt

theorem Ascending.mem_iff {m : Ordered ν} (hm : m.Ascending) {key : String} {v : ν} :
    (key, v) ∈ m ↔ m.get? key = some v :=
  ⟨hm.get?_of_mem, mem_of_get?⟩

/-- Two ascending maps are equal if the same is found in both. -/
theorem ext {m n : Ordered ν} (hm : m.Ascending) (hn : n.Ascending)
    (h : ∀ key, m.get? key = n.get? key) : m = n := by
  refine List.Perm.eq_of_pairwise ?_ hm hn ?_
  · rintro a b - - hab hba
    exact absurd (String.lt_trans hab hba) (String.lt_irrefl _)
  · have hnodup : ∀ {k : Ordered ν}, k.Ascending → k.Nodup := by
      intro k hk
      refine List.Pairwise.imp ?_ hk
      rintro a b hlt rfl
      exact String.lt_irrefl _ hlt
    refine (List.perm_ext_iff_of_nodup (hnodup hm) (hnodup hn)).mpr ?_
    rintro ⟨key, v⟩
    rw [hm.mem_iff, hn.mem_iff, h key]

/-! ## Setting -/

@[simp]
theorem get?_set (m : Ordered ν) (key other : String) (value : ν) :
    (m.set key value).get? other = if other = key then some value else m.get? other := by
  induction m with
  | nil => exact get?_cons other key value []
  | cons entry rest ih =>
    obtain ⟨k, v⟩ := entry
    by_cases hlt : key < k
    · simp [set, hlt]
    · by_cases heq : k = key
      · subst heq
        by_cases hother : other = k <;> simp [set, hother]
      · by_cases hother : other = k
        · simp [set, hlt, heq, hother]
        · simp [set, hlt, heq, hother, ih]

theorem mem_of_mem_set {m : Ordered ν} {key : String} {value : ν} {entry : String × ν}
    (h : entry ∈ m.set key value) : entry = (key, value) ∨ entry ∈ m := by
  induction m with
  | nil => exact .inl (List.mem_singleton.mp h)
  | cons first rest ih =>
    obtain ⟨k, v⟩ := first
    rw [set] at h
    split at h
    · exact List.mem_cons.mp h
    · split at h
      · exact (List.mem_cons.mp h).imp_right (List.mem_cons_of_mem _)
      · rcases List.mem_cons.mp h with rfl | h
        · exact .inr List.mem_cons_self
        · exact (ih h).imp_right (List.mem_cons_of_mem _)

theorem ascending_set {m : Ordered ν} (hm : m.Ascending) (key : String) (value : ν) :
    (m.set key value).Ascending := by
  induction m with
  | nil => exact List.pairwise_singleton _ _
  | cons entry rest ih =>
    obtain ⟨k, v⟩ := entry
    obtain ⟨hfirst, hrest⟩ := List.pairwise_cons.mp hm
    rw [set]
    by_cases hlt : key < k
    · rw [if_pos hlt]
      refine List.pairwise_cons.mpr ⟨fun other hother => ?_, hm⟩
      rcases List.mem_cons.mp hother with rfl | hother
      · exact hlt
      · exact String.lt_trans hlt (hfirst other hother)
    · rw [if_neg hlt]
      by_cases heq : k = key
      · rw [if_pos heq]
        exact List.pairwise_cons.mpr ⟨fun other hother => heq ▸ hfirst other hother, hrest⟩
      · rw [if_neg heq]
        refine List.pairwise_cons.mpr ⟨fun other hother => ?_, ih hrest⟩
        rcases mem_of_mem_set hother with rfl | hother
        · by_contra hge
          exact heq (String.le_antisymm (String.not_lt.mp hlt) (String.not_lt.mp hge))
        · exact hfirst other hother

/-- A key after all others goes to the end. -/
theorem set_eq_append {m : Ordered ν} {key : String} {value : ν} (h : ∀ entry ∈ m, entry.1 < key) :
    m.set key value = m ++ [(key, value)] := by
  induction m with
  | nil => rfl
  | cons entry rest ih =>
    obtain ⟨k, v⟩ := entry
    have hlt : k < key := h _ List.mem_cons_self
    rw [set, if_neg (String.lt_asymm hlt), if_neg (fun heq => String.lt_irrefl _ (heq ▸ hlt)),
      ih fun other hother => h other (List.mem_cons_of_mem _ hother)]
    rfl

end ComponentAssembly.Ordered

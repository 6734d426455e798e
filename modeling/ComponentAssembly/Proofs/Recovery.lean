import ComponentAssembly.Proofs.DescriptorText
import ComponentAssembly.Proofs.Merging

/-!
# What a cache keeps when it is written and read back, or merged anew

Reading the text of a cache, and merging the cache into an empty one, both put its entries together
one by one.  So all entries come back, and with them the categories that have any; a category without
entries is lost (`Cache.Obtained.recovered`):

    (ofJson c.toJson j).1 = .ok c.occupied        (({} : Cache).merge c j).1 = c.occupied
-/

namespace ComponentAssembly.Cache

variable {c : Cache} {offers : PluginEntry → Prop}

/-- A cache that can be come by: from entries, from texts, by merging, and by looking at categories,
which are there from then on. -/
inductive Obtained : Cache → Prop
  | empty : Obtained {}
  | insert {c : Cache} (e : PluginEntry) (j : Journal) : Obtained c → Obtained (c.insert e j).1
  | merge {c d : Cache} (j : Journal) : Obtained c → Obtained d → Obtained (c.merge d j).1
  | read {text : String} {c : Cache} {j k : Journal} : ofJson text j = (.ok c, k) → Obtained c
  | touch {c : Cache} (name : String) : Obtained c → Obtained (c.touch name)

/-- A cache without the categories that have no entries. -/
def occupied (c : Cache) : Cache :=
  { categories := c.categories.filter fun (_, entries) => !entries.isEmpty }

/-! ## Categories without entries -/

@[simp]
theorem at?_touch (c : Cache) (name category key : String) :
    (c.touch name).at? category key = c.at? category key := by
  unfold touch setCategory at?
  rw [Ordered.get?_set]
  by_cases hcategory : category = Text.lower name
  · rw [if_pos hcategory, hcategory, Option.bind_some]
    unfold entries category?
    cases c.categories.get? (Text.lower name) <;> rfl
  · rw [if_neg hcategory]

theorem Holds.touch (h : c.Holds offers) (name : String) : (c.touch name).Holds offers where
  toTidy := h.toTidy.setCategory name (h.entries_ascending name)
  lowered := h.lowered
  least category key := by
    rw [at?_touch]
    exact h.least category key

theorem Obtained.holds (h : c.Obtained) : ∃ offers, c.Holds offers := by
  induction h with
  | empty => exact ⟨_, holds_empty⟩
  | insert e j _ ih =>
    obtain ⟨offers, hholds⟩ := ih
    rw [insert_fst]
    exact ⟨_, hholds.inserted e⟩
  | merge j _ _ hinto hother =>
    obtain ⟨offers, hholds⟩ := hinto
    obtain ⟨others, hothers⟩ := hother
    exact ⟨_, hholds.merge hothers j⟩
  | @read text c j k h =>
    cases hread : Descriptor.readCategories text with
    | error cause =>
      rw [ofJson, hread] at h
      cases h
    | ok categories =>
      rw [ofJson_fst hread h]
      exact ⟨_, holds_empty.insertedAll _⟩
  | touch name _ ih =>
    obtain ⟨offers, hholds⟩ := ih
    exact ⟨_, hholds.touch name⟩

theorem occupied_full (c : Cache) : c.occupied.Full := by
  intro category es hmem hnil
  have hoccupied := (List.mem_filter.mp hmem).2
  simp [hnil] at hoccupied

theorem Tidy.occupied (h : c.Tidy) : c.occupied.Tidy where
  ascending := h.ascending.sublist List.filter_sublist
  entries category es hmem := h.entries category es (List.mem_of_mem_filter hmem)

theorem Tidy.at?_occupied (h : c.Tidy) (category key : String) :
    c.occupied.at? category key = c.at? category key := by
  unfold at?
  cases hes : c.occupied.categories.get? category with
  | some es =>
    have hmem := List.mem_of_mem_filter (Ordered.mem_of_get? hes)
    rw [h.ascending.get?_of_mem hmem]
  | none =>
    cases hfs : c.categories.get? category with
    | none => rfl
    | some es =>
      -- A category that is there with entries would still be there.
      have hnil : es = [] := by
        by_contra hne
        have hmem : (category, es) ∈ c.occupied.categories :=
          List.mem_filter.mpr ⟨Ordered.mem_of_get? hfs, by simpa using hne⟩
        rw [h.occupied.ascending.get?_of_mem hmem] at hes
        cases hes
      rw [hnil]
      rfl

theorem Holds.occupied (h : c.Holds offers) : c.occupied.Holds offers where
  toTidy := h.toTidy.occupied
  lowered := h.lowered
  least category key := by
    rw [h.toTidy.at?_occupied]
    exact h.least category key

theorem occupied_eq_iff (c : Cache) : c.occupied = c ↔ c.Full := by
  constructor
  · intro heq
    rw [← heq]
    exact c.occupied_full
  · intro hfull
    have hall : ∀ category ∈ c.categories, (!category.2.isEmpty) = true := by
      rintro ⟨category, es⟩ hmem
      simpa using hfull category es hmem
    rw [occupied, List.filter_eq_self.mpr hall]

/-! ## Put together anew -/

/-- The entries of a cache, put together anew. -/
theorem Holds.rebuilt (h : c.Holds offers) :
    ({} : Cache).insertedAll (stamped c.categories) = c.occupied := by
  have hmerged := holds_empty.merge h {}
  rw [merge_fst] at hmerged
  exact Holds.unique (hmerged.congr fun e => by simp) h.occupied (full_empty.insertedAll _)
    c.occupied_full

/-- The category that an entry does not carry is that which it stands under. -/
theorem stamped_unfiled (categories : Ordered CategoryEntries) :
    stamped (categories.map fun (category, entries) =>
      (category, entries.map fun (key, e) => (key, Descriptor.unfiled e))) = stamped categories := by
  unfold stamped
  simp only [List.flatMap_map, List.map_map]
  rfl

/-- **Entries come back, empty categories do not.**  Reading the text of a cache gives the cache
without its empty categories, and so does merging it into an empty one.  No entry is lost; the cache
itself comes back exactly if it has no empty category. -/
theorem Obtained.recovered (h : c.Obtained) (j : Journal) :
    (ofJson c.toJson j).1 = .ok c.occupied ∧ (({} : Cache).merge c j).1 = c.occupied ∧
      (∀ category key, c.occupied.at? category key = c.at? category key) ∧
      (c.occupied = c ↔ ∀ category es, (category, es) ∈ c.categories → es ≠ []) := by
  obtain ⟨offers, hholds⟩ := h.holds
  have hread : (ofJson c.toJson j).1 =
      .ok (({} : Cache).insertedAll (stamped c.categories)) := by
    have hresult : (ofJson c.toJson j).1 =
        .ok (ofCategories (c.categories.map fun (category, entries) =>
          (category, entries.map fun (key, e) => (key, Descriptor.unfiled e))) j).1 := by
      unfold ofJson
      rw [Descriptor.readCategories_toJson hholds.ascending hholds.entries]
      rfl
    rw [hresult, ofCategories_fst, stamped_unfiled]
  refine ⟨?_, ?_, hholds.toTidy.at?_occupied, c.occupied_eq_iff⟩
  · rw [hread, hholds.rebuilt]
  · rw [merge_fst, hholds.rebuilt]

/-- A cache with a console comes back without the category `lookup`, at which somebody looked. -/
theorem recovered_console :
    let console : PluginEntry := PluginEntry.of "Console" "org.example.Console" "Core"
    let c := ((({} : Cache).touch "Lookup").insert console {}).1
    (c.categories.keys = ["core", "lookup"] ∧ c.occupied.categories.keys = ["core"]) ∧
      (ofJson c.toJson {}).1 = .ok c.occupied := by
  intro console c
  have hobtained : c.Obtained := .insert console {} (.touch "Lookup" .empty)
  exact ⟨by decide +kernel, (hobtained.recovered {}).1⟩

/-- Neither reading back nor merging anew gives every cache again. -/
theorem not_obtained_recovered :
    (¬ ∀ c : Cache, c.Obtained → ∀ j, (ofJson c.toJson j).1 = .ok c) ∧
      ¬ ∀ c : Cache, c.Obtained → ∀ j, (({} : Cache).merge c j).1 = c := by
  have hobtained : (touch {} "core").Obtained := .touch "core" .empty
  constructor
  · intro h
    have hread : (ofJson (touch {} "core").toJson {}).1 = .ok {} := by decide +kernel
    have hlost := (h _ hobtained {}).symm.trans hread
    have hnot : touch {} "core" ≠ {} := by decide +kernel
    exact hnot (Except.ok.inj hlost)
  · intro h
    have hnot : (({} : Cache).merge (touch {} "core") {}).1 ≠ touch {} "core" := by decide +kernel
    exact hnot (h _ hobtained {})

end ComponentAssembly.Cache

import ComponentAssembly.Proofs.PluginLookups

/-!
# Which entries of a registry are found

Lookups compare lower forms, but entries that are merged keep their keys as they were written.  So an
entry is found by those names whose lower form is its key, and a list has it once for each key of its
category whose lower form that is (`Registry.Reachable.found_by_lower_form`):

    plugin? category name   gives e    iff    Text.lower name = e.key
    plugins category        has e      (keys of category whose lower form is e.key) times

An entry with a capital letter in its key is never found (`Registry.not_found_exactly_once`).  Where all
keys are lower forms, every entry with a class is listed once, in the order of the keys, and nothing
else; and they are, if they are in whatever is merged (`Registry.lowerKeyed_after`).
-/

namespace ComponentAssembly

namespace Cache

variable {c : Cache} {offers : PluginEntry → Prop}

/-! ## What is stored -/

@[simp]
theorem get?_entries_lower (c : Cache) (category key : String) :
    (c.entries category).get? key = c.at? (Text.lower category) key := by
  rw [← c.entries_lower, c.get?_entries (Text.lower_lower category)]

/-- Entries carry the key that they stand under, and the lower form of their category. -/
theorem Holds.isAt_of_mem (h : c.Holds offers) {category key : String} {e : PluginEntry}
    (he : (key, e) ∈ c.entries category) : e.IsAt (Text.lower category) key := by
  have hget := (h.entries_ascending category).get?_of_mem he
  have hleast := h.least (Text.lower category) key
  rw [c.get?_entries_lower] at hget
  rw [hget] at hleast
  exact hleast.1.2

/-- All entries stand under keys that are lower forms. -/
def LowerKeyed (c : Cache) : Prop :=
  ∀ category key e, c.at? category key = some e → Text.lower key = key

theorem LowerKeyed.inserted (h : c.LowerKeyed) {e : PluginEntry} (he : Text.lower e.key = e.key) :
    (c.inserted e).LowerKeyed := by
  have hplaced : (c.placed e.lowered).LowerKeyed := by
    intro category key other hother
    rw [at?_placed c e.lower_category_lowered] at hother
    split at hother
    · next hplace =>
      rw [hplace.2]
      exact he
    · exact h category key other hother
  unfold Cache.inserted
  split
  · exact hplaced
  · split
    · exact h
    · exact hplaced

theorem LowerKeyed.insertedAll (h : c.LowerKeyed) {es : List PluginEntry}
    (hes : ∀ e ∈ es, Text.lower e.key = e.key) : (c.insertedAll es).LowerKeyed := by
  induction es generalizing c with
  | nil => exact h
  | cons e es ih =>
    exact ih (h.inserted (hes e List.mem_cons_self)) fun e he => hes e (List.mem_cons_of_mem _ he)

end Cache

namespace Registry

variable {r : Registry} {category : String}

theorem Reachable.holds (h : r.Reachable) : ∃ offers, r.cache.Holds offers := by
  induction h with
  | empty => exact ⟨_, Cache.holds_empty⟩
  | @step r hr q j ih =>
    obtain ⟨offers, hholds⟩ := ih
    rw [(q.run_spec hr.coherent j).2.2.2]
    cases q with
    | registerPlugin _ _ _ => exact ⟨_, hholds.inserted _⟩
    | mergeCache _ => exact ⟨_, hholds.insertedAll _⟩
    | registerClass _ => exact ⟨_, hholds⟩
    | plugin _ _ => exact ⟨_, hholds⟩
    | plugins _ => exact ⟨_, hholds⟩
    | annotate _ _ => exact ⟨_, hholds⟩

/-! ## Lower keys -/

/-- What a request merges stands under keys that are lower forms. -/
def Request.LowerKeyed : Request → Prop
  | .mergeCache c => ∀ e ∈ Cache.stamped c.categories, Text.lower e.key = e.key
  | _ => True

theorem Request.descriptors_lowerKeyed {q : Request} (hq : q.LowerKeyed) {c : Cache}
    (hc : c.LowerKeyed) : (q.descriptors c).LowerKeyed := by
  cases q with
  | registerPlugin _ name _ => exact hc.inserted (Text.lower_lower name)
  | mergeCache other => exact hc.insertedAll hq
  | registerClass _ => exact hc
  | plugin _ _ => exact hc
  | plugins _ => exact hc
  | annotate _ _ => exact hc

/-- Keys stay lower forms while they are in whatever is merged. -/
theorem lowerKeyed_after (h : r.Reachable) (hr : r.cache.LowerKeyed) {qs : List Request}
    (hqs : ∀ q ∈ qs, q.LowerKeyed) (j : Journal) : (after qs r j).cache.LowerKeyed := by
  induction qs generalizing r j with
  | nil => exact hr
  | cons q qs ih =>
    refine ih (.step h q j) ?_ (fun q hq => hqs q (List.mem_cons_of_mem _ hq)) _
    rw [(q.run_spec h.coherent j).2.2.2]
    exact q.descriptors_lowerKeyed (hqs q List.mem_cons_self) hr

/-! ## What is found and listed -/

/-- The plugin type of an entry that is stored, if its class is known. -/
def typeOf? (r : Registry) (e : PluginEntry) : Option PluginType :=
  (r.class? e.className).map fun pluginClass => { entry := e, pluginClass }

theorem resolve?_of_get? {key : String} {e : PluginEntry}
    (h : (r.cache.entries category).get? (Text.lower key) = some e) :
    r.resolve? category key = r.typeOf? e := by
  unfold resolve? typeOf?
  rw [h]
  rfl

/-- An entry that is stored is found by the names whose lower form is its key. -/
theorem Reachable.resolve?_stored (h : r.Reachable) {key : String} {e : PluginEntry}
    (he : (key, e) ∈ r.cache.entries category) {pluginClass : PluginClass}
    (hclass : r.class? e.className = some pluginClass) (name : String) :
    r.resolve? category name = some { entry := e, pluginClass } ↔ Text.lower name = e.key := by
  obtain ⟨offers, hholds⟩ := h.holds
  have hkey : e.key = key := (hholds.isAt_of_mem he).2
  rw [resolve?_eq_some_iff]
  constructor
  · rintro ⟨hget, -⟩
    exact (hholds.isAt_of_mem (Ordered.mem_of_get? hget)).2.symm
  · intro hname
    rw [hname, hkey]
    exact ⟨(hholds.entries_ascending category).get?_of_mem he, hclass⟩

theorem Reachable.plugins_eq (h : r.Reachable) (category : String) (j : Journal) :
    (plugins category r j).1.1 = r.listed category :=
  (answers_plugins h.coherent category r j (.refl r)).1

theorem Reachable.plugin?_eq (h : r.Reachable) {other : String}
    (hother : Text.lower other = Text.lower category) (name : String) (j : Journal) :
    (plugin? other name r j).1.1.map (·.plugin) = r.resolve? category name := by
  rw [(plugin?_spec h.coherent other name j).1]
  exact r.resolve?_congr (by rw [hother])

theorem Reachable.mem_listed (h : r.Reachable) {t : PluginType} (ht : t ∈ r.listed category) :
    (t.entry.key, t.entry) ∈ r.cache.entries category ∧
      r.class? t.entry.className = some t.pluginClass := by
  obtain ⟨offers, hholds⟩ := h.holds
  obtain ⟨key, -, hresolve⟩ := List.mem_filterMap.mp ht
  obtain ⟨hget, hclass⟩ := resolve?_eq_some_iff.mp hresolve
  have hmem := Ordered.mem_of_get? hget
  rw [(hholds.isAt_of_mem hmem).2]
  exact ⟨hmem, hclass⟩

/-- Where all keys are lower forms, each key leads to the entry that stands under it. -/
theorem Reachable.listed_lowerKeyed (h : r.Reachable) (hlower : r.cache.LowerKeyed) :
    r.listed category = (r.cache.entries category).filterMap fun entry => r.typeOf? entry.2 := by
  obtain ⟨offers, hholds⟩ := h.holds
  unfold listed Ordered.keys
  rw [List.filterMap_map]
  refine List.filterMap_congr fun entry hentry => ?_
  have hget := (hholds.entries_ascending category).get?_of_mem (v := entry.2) hentry
  have hkey := hlower _ _ _ ((r.cache.get?_entries_lower category entry.1).symm.trans hget)
  exact resolve?_of_get? (by rw [hkey]; exact hget)

theorem Reachable.listed_ascending (h : r.Reachable) (hlower : r.cache.LowerKeyed) :
    (r.listed category).Pairwise fun t u => t.entry.key < u.entry.key := by
  obtain ⟨offers, hholds⟩ := h.holds
  rw [h.listed_lowerKeyed hlower, List.pairwise_filterMap]
  refine (hholds.entries_ascending category).imp_of_mem ?_
  rintro ⟨key, e⟩ ⟨key', e'⟩ he he' hlt t ht u hu
  obtain ⟨_, -, rfl⟩ := Option.map_eq_some_iff.mp ht
  obtain ⟨_, -, rfl⟩ := Option.map_eq_some_iff.mp hu
  rwa [(hholds.isAt_of_mem he).2, (hholds.isAt_of_mem he').2]

/-- **Entries are found by lower forms.**  An entry that is stored, and whose class is known, is found
by the names whose lower form is its key, and a list has it as often as its category has such keys.
Lists have nothing else.  If all keys are lower forms, a list has every entry with a known class once,
in ascending order of the keys. -/
theorem Reachable.found_by_lower_form (h : r.Reachable) (category : String) :
    (∀ key e pluginClass, (key, e) ∈ r.cache.entries category →
        r.class? e.className = some pluginClass →
        (∀ other name j, Text.lower other = Text.lower category →
          ((plugin? other name r j).1.1.map (·.plugin) = some { entry := e, pluginClass } ↔
            Text.lower name = key)) ∧
          ∀ j, (plugins category r j).1.1.count { entry := e, pluginClass } =
            (Ordered.keys (r.cache.entries category)).countP (Text.lower · = key)) ∧
      (∀ j, ∀ t ∈ (plugins category r j).1.1, (t.entry.key, t.entry) ∈ r.cache.entries category ∧
        r.class? t.entry.className = some t.pluginClass) ∧
      (r.cache.LowerKeyed → ∀ j,
        (plugins category r j).1.1 =
            (r.cache.entries category).filterMap (fun entry => r.typeOf? entry.2) ∧
          (plugins category r j).1.1.Pairwise fun t u => t.entry.key < u.entry.key) := by
  obtain ⟨offers, hholds⟩ := h.holds
  refine ⟨?_, ?_, ?_⟩
  · intro key e pluginClass he hclass
    have hkey : e.key = key := (hholds.isAt_of_mem he).2
    have hfound := h.resolve?_stored he hclass
    rw [hkey] at hfound
    constructor
    · intro other name j hother
      rw [h.plugin?_eq hother]
      exact hfound name
    · intro j
      rw [h.plugins_eq, listed, List.count_filterMap]
      exact List.countP_congr fun name _ => by simpa using hfound name
  · intro j t ht
    rw [h.plugins_eq] at ht
    exact h.mem_listed ht
  · intro hlower j
    rw [h.plugins_eq]
    exact ⟨h.listed_lowerKeyed hlower, h.listed_ascending hlower⟩

/-- A console and a file, whose keys are lower forms, are both found, and listed in order. -/
theorem console_file_found :
    let console := PluginClass.of ⟨"org.example.Console"⟩
    let file := PluginClass.of ⟨"org.example.File"⟩
    let r := after [.registerPlugin "Core" "File" file, .registerPlugin "core" "Console" console] {} {}
    r.Reachable ∧
      (plugin? "CORE" "FILE" r {}).1.1.map (·.plugin) = some (.ofClass "File" "core" file) ∧
      (plugins "Core" r {}).1.1.count (.ofClass "File" "core" file) = 1 ∧
      (plugins "Core" r {}).1.1 = [.ofClass "Console" "core" console, .ofClass "File" "core" file] := by
  intro console file r
  have hreachable : r.Reachable := reachable_after .empty _ {}
  have hlower : r.cache.LowerKeyed := by
    refine lowerKeyed_after .empty (fun _ _ _ h => by cases h) ?_ {}
    intro q hq
    simp only [List.mem_cons, List.not_mem_nil, or_false] at hq
    rcases hq with rfl | rfl <;> trivial
  obtain ⟨hstored, -, hlisted⟩ := hreachable.found_by_lower_form "Core"
  obtain ⟨hfound, hcount⟩ := hstored "file" (PluginEntry.of "File" file.className "core") file
    (by decide +kernel) (by decide +kernel)
  refine ⟨hreachable, (hfound "CORE" "FILE" {} (by decide +kernel)).mpr (by decide +kernel), ?_, ?_⟩
  · exact (hcount {}).trans (by decide +kernel)
  · rw [(hlisted hlower {}).1]
    decide +kernel

/-- Not every entry with a class is found whatever the case of its key: a console that is merged under a
key with a capital letter is neither found nor listed. -/
theorem not_found_exactly_once : ¬ ∀ r : Registry, r.Reachable → ∀ category key e pluginClass,
    (key, e) ∈ r.cache.entries category → r.class? e.className = some pluginClass →
      (∀ other ∈ Ordered.keys (r.cache.entries category),
        Text.lower other = Text.lower key → other = key) →
      (∀ other name j, Text.lower other = Text.lower category → Text.lower name = Text.lower key →
        (plugin? other name r j).1.1.map (·.plugin) = some { entry := e, pluginClass }) ∧
        ∀ j, (plugins category r j).1.1.count { entry := e, pluginClass } = 1 := by
  intro h
  let console := PluginClass.of ⟨"org.example.Console"⟩
  let e : PluginEntry := { PluginEntry.of "Console" console.className "core" with key := "Console" }
  let r := after [.registerClass console, .mergeCache { categories := [("core", [("Console", e)])] }] {} {}
  have hfound := (h r (reachable_after .empty _ {}) "core" "Console" e console (by decide +kernel)
    (by decide +kernel) (by decide +kernel)).1 "core" "Console" {} rfl rfl
  have hnone : (plugin? "core" "Console" r {}).1.1 = none := by decide +kernel
  rw [hnone] at hfound
  cases hfound

end Registry

end ComponentAssembly

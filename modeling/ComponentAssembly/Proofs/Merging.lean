import ComponentAssembly.Descriptor.Decode
import ComponentAssembly.Proofs.Offers

/-!
# Merging in any order and grouping

Sources are caches that were put together from entries, or read from texts.  However they are merged,
in whatever order, with whatever partial merges and however often each, the result is the same
(`Cache.Merging.run_eq_of_same_sources`):

    (∀ s, s ∈ p.sources ↔ s ∈ q.sources) → (p.run j).1 = (q.run k).1

It has the least of the entries of the sources under each category and key, and nothing else
(`Cache.Merged`).
-/

namespace ComponentAssembly.Cache

variable {c d : Cache} {offers others : PluginEntry → Prop}

/-! ## Sources -/

/-- A cache that was put together from these entries, one after the other, or read from a text. -/
inductive Built : Cache → List PluginEntry → Prop
  | empty : Built {} []
  | insert {c : Cache} {offers : List PluginEntry} (e : PluginEntry) (j : Journal) :
      Built c offers → Built (c.insert e j).1 (offers ++ [e.lowered])
  | read {text : String} {categories : Ordered CategoryEntries} {c : Cache} {j k : Journal} :
      Descriptor.readCategories text = .ok categories → ofJson text j = (.ok c, k) →
      Built c ((stamped categories).map PluginEntry.lowered)

/-- A cache to merge, with the entries that it was offered. -/
structure Source where
  cache : Cache
  offers : List PluginEntry
  built : Built cache offers

/-- A cache that was read is made of the categories in the text. -/
theorem ofJson_fst {text : String} {categories : Ordered CategoryEntries} {j k : Journal}
    (hread : Descriptor.readCategories text = .ok categories) (h : ofJson text j = (.ok c, k)) :
    c = insertedAll {} (stamped categories) := by
  have hresult : (ofJson text j).1 = .ok (ofCategories categories j).1 := by
    unfold ofJson
    rw [hread]
    rfl
  rw [h, ofCategories_fst] at hresult
  exact Except.ok.inj hresult

theorem Built.holds {offers : List PluginEntry} (h : Built c offers) :
    c.Holds (· ∈ offers) ∧ c.Full := by
  induction h with
  | empty => exact ⟨holds_empty.congr fun e => by simp, full_empty⟩
  | insert e j _ ih =>
    rw [insert_fst]
    exact ⟨(ih.1.inserted e).congr fun o => by simp, ih.2.inserted e⟩
  | read hread h =>
    rw [ofJson_fst hread h]
    refine ⟨(holds_empty.insertedAll _).congr fun o => ?_, full_empty.insertedAll _⟩
    simp [eq_comm]

/-! ## Merges -/

/-- A way to merge sources. -/
inductive Merging where
  | empty
  | source (s : Source)
  | merge (into other : Merging)

def Merging.sources : Merging → List Source
  | .empty => []
  | .source s => [s]
  | .merge into other => into.sources ++ other.sources

def Merging.run : Merging → StateM Journal Cache
  | .empty => return {}
  | .source s => return s.cache
  | .merge into other => do
    let c ← into.run
    c.merge (← other.run)

/-- A cache is what the sources come to: under each category and key it has the least entry of the
sources, which is also the least that was offered to any of them.  Merging one of them again changes
nothing. -/
structure Merged (c : Cache) (sources : List Source) : Prop extends c.Tidy where
  full : c.Full
  least : ∀ category key,
    LeastOf (fun e => ∃ s ∈ sources, s.cache.at? category key = some e) (c.at? category key)
  leastOffer : ∀ category key,
    LeastOf (fun e => (∃ s ∈ sources, e ∈ s.offers) ∧ e.IsAt category key) (c.at? category key)
  again : ∀ s ∈ sources, ∀ j, (c.merge s.cache j).1 = c

/-- What a cache has stands where it belongs, so that its entries are stamped with what they have. -/
theorem Holds.mem_stamped (h : c.Holds offers) (e : PluginEntry) :
    e ∈ stamped c.categories ↔ c.at? e.category e.key = some e := by
  unfold stamped at?
  rw [List.mem_flatMap]
  constructor
  · rintro ⟨⟨category, es⟩, hes, he⟩
    obtain ⟨⟨key, old⟩, hold, rfl⟩ := List.mem_map.mp he
    have hcategory := h.ascending.get?_of_mem hes
    have hkey := (h.entries category es hes).get?_of_mem hold
    have hleast := h.least category key
    simp only [at?, hcategory, Option.bind_some, hkey] at hleast
    obtain ⟨⟨-, rfl, rfl⟩, -⟩ := hleast
    simp [hcategory, hkey]
  · intro hat
    obtain ⟨es, hes, he⟩ := Option.bind_eq_some_iff.mp hat
    exact ⟨(e.category, es), Ordered.mem_of_get? hes,
      List.mem_map.mpr ⟨(e.key, e), Ordered.mem_of_get? he, rfl⟩⟩

/-- A merged cache was offered what both were offered. -/
theorem Holds.merge (hc : c.Holds offers) (hd : d.Holds others) (j : Journal) :
    (c.merge d j).1.Holds fun e => offers e ∨ others e := by
  rw [merge_fst]
  -- What the other cache has lost is no less than what it has.
  have hkept : ∀ e, others e → ∃ f ∈ stamped d.categories,
      others f ∧ f.IsAt e.category e.key ∧ f.rank ≤ e.rank := by
    intro e he
    have hleast := hd.least e.category e.key
    cases hat : d.at? e.category e.key with
    | none =>
      rw [hat] at hleast
      exact absurd ⟨he, rfl, rfl⟩ (hleast e)
    | some f =>
      rw [hat] at hleast
      obtain ⟨⟨hf, hcategory, hkey⟩, hless⟩ := hleast
      refine ⟨f, (hd.mem_stamped f).mpr ?_, hf, ⟨hcategory, hkey⟩, hless e ⟨he, rfl, rfl⟩⟩
      rw [hcategory, hkey, hat]
  have hlowered : ∀ e, others e → e.lowered = e := by
    intro e he
    rw [PluginEntry.lowered, hd.lowered e he]
  have hstamped : ∀ e ∈ stamped d.categories, others e := by
    intro e he
    have hleast := hd.least e.category e.key
    rw [(hd.mem_stamped e).mp he] at hleast
    exact hleast.1.1
  refine (hc.insertedAll (stamped d.categories)).of_offers ?_ ?_ ?_
  · rintro o (ho | ⟨e, he, rfl⟩)
    · exact .inl ho
    · rw [hlowered e (hstamped e he)]
      exact .inr (hstamped e he)
  · rintro e (he | he)
    · exact hc.lowered e he
    · exact hd.lowered e he
  · rintro e (he | he)
    · exact ⟨e, .inl he, ⟨rfl, rfl⟩, le_rfl⟩
    · obtain ⟨f, hf, hother, hplace, hless⟩ := hkept e he
      exact ⟨f, .inr ⟨f, hf, (hlowered f hother).symm⟩, hplace, hless⟩

theorem Full.merge (h : c.Full) (d : Cache) (j : Journal) : (c.merge d j).1.Full := by
  rw [merge_fst]
  exact h.insertedAll _

/-- A merge was offered what its sources were offered. -/
theorem Merging.run_holds (p : Merging) (j : Journal) :
    (p.run j).1.Holds (fun e => ∃ s ∈ p.sources, e ∈ s.offers) ∧ (p.run j).1.Full := by
  induction p generalizing j with
  | empty => exact ⟨holds_empty.congr fun e => by simp [sources], full_empty⟩
  | source s => exact ⟨s.built.holds.1.congr fun e => by simp [sources], s.built.holds.2⟩
  | merge into other hinto hother =>
    obtain ⟨hc, hfull⟩ := hinto j
    obtain ⟨hd, -⟩ := hother (into.run j).2
    refine ⟨(hc.merge hd _).congr fun e => ?_, hfull.merge _ _⟩
    simp [sources, or_and_right, exists_or]

/-- The least that was offered to some sources is the least that they have. -/
theorem least_of_offers {sources : List Source} {category key : String} {o : Option PluginEntry}
    (h : LeastOf (fun e => (∃ s ∈ sources, e ∈ s.offers) ∧ e.IsAt category key) o) :
    LeastOf (fun e => ∃ s ∈ sources, s.cache.at? category key = some e) o := by
  -- What a source has under a key is the least of its offers for it.
  have hsource : ∀ s : Source, LeastOf (fun e => e ∈ s.offers ∧ e.IsAt category key)
      (s.cache.at? category key) := fun s => s.built.holds.1.least category key
  have hoffered : ∀ s : Source, ∀ e, s.cache.at? category key = some e →
      e ∈ s.offers ∧ e.IsAt category key := by
    intro s e hat
    have hleast := hsource s
    rw [hat] at hleast
    exact hleast.1
  cases o with
  | none =>
    rintro e ⟨s, hs, hat⟩
    obtain ⟨hoffer, hplace⟩ := hoffered s e hat
    exact h e ⟨⟨s, hs, hoffer⟩, hplace⟩
  | some e =>
    obtain ⟨⟨⟨s, hs, hoffer⟩, hplace⟩, hless⟩ := h
    refine ⟨⟨s, hs, ?_⟩, ?_⟩
    · have hleast := hsource s
      cases hat : s.cache.at? category key with
      | none =>
        rw [hat] at hleast
        exact absurd ⟨hoffer, hplace⟩ (hleast e)
      | some f =>
        rw [hat] at hleast
        obtain ⟨⟨hfoffer, hfplace⟩, hfless⟩ := hleast
        have hrank := le_antisymm (hfless e ⟨hoffer, hplace⟩) (hless f ⟨⟨s, hs, hfoffer⟩, hfplace⟩)
        rw [PluginEntry.eq_of_rank hrank hfplace hplace]
    · rintro other ⟨t, ht, hat⟩
      obtain ⟨hother, hotherplace⟩ := hoffered t other hat
      exact hless other ⟨⟨t, ht, hother⟩, hotherplace⟩

theorem Merging.run_merged (p : Merging) (j : Journal) : (p.run j).1.Merged p.sources := by
  obtain ⟨hholds, hfull⟩ := p.run_holds j
  refine
    { toTidy := hholds.toTidy, full := hfull, leastOffer := hholds.least,
      least := fun category key => least_of_offers (hholds.least category key), again := ?_ }
  intro s hs k
  have hagain := hholds.merge s.built.holds.1 k
  refine Holds.unique (hagain.congr fun e => ?_) hholds (hfull.merge _ _) hfull
  constructor
  · rintro (he | he)
    · exact he
    · exact ⟨s, hs, he⟩
  · exact .inl

/-- **Merging does not depend on order or grouping.**  Two merges of the same sources, each merged
any number of times, in any order and with any partial merges, give the same cache and the same
text.  It has the least entry of the sources under each category and key, and no other. -/
theorem Merging.run_eq_of_same_sources (p q : Merging) (j k : Journal)
    (h : ∀ s, s ∈ p.sources ↔ s ∈ q.sources) :
    (p.run j).1 = (q.run k).1 ∧ (p.run j).1.toJson = (q.run k).1.toJson ∧
      (p.run j).1.Merged p.sources := by
  have heq : (p.run j).1 = (q.run k).1 := by
    obtain ⟨hp, hfullp⟩ := p.run_holds j
    obtain ⟨hq, hfullq⟩ := q.run_holds k
    refine Holds.unique hp (hq.congr fun e => ?_) hfullp hfullq
    simp only [h]
  exact ⟨heq, by rw [heq], p.run_merged j⟩

/-! ## Two consoles -/

/-- A source of one entry for the key `console`. -/
def Source.console (className category : String) : Source where
  cache := (({} : Cache).insert { key := "console", className, name := "Console", category } {}).1
  offers := [] ++ [PluginEntry.lowered { key := "console", className, name := "Console", category }]
  built := .insert _ _ .empty

/-- Of two consoles the first by class name stays, in whatever order and grouping. -/
theorem merged_consoles :
    let a := Source.console "org.example.ConsoleA" "core"
    let b := Source.console "org.example.ConsoleB" "Core"
    let p := Merging.merge (.merge .empty (.source a)) (.source b)
    let q := Merging.merge .empty (.merge (.merge (.source b) (.source b)) (.source a))
    ((p.run {}).1 = (q.run {}).1 ∧ (p.run {}).1.toJson = (q.run {}).1.toJson ∧
        (p.run {}).1.Merged p.sources) ∧
      ((q.run {}).1.at? "core" "console").map (·.className) = some "org.example.ConsoleA" := by
  intro a b p q
  have hsources : ∀ s, s ∈ p.sources ↔ s ∈ q.sources := by
    intro s
    simp only [p, q, Merging.sources, List.nil_append, List.cons_append, List.mem_cons,
      List.not_mem_nil, or_false]
    tauto
  exact ⟨p.run_eq_of_same_sources q {} {} hsources, by decide +kernel⟩

end ComponentAssembly.Cache

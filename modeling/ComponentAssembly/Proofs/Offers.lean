import ComponentAssembly.Descriptor.Cache
import ComponentAssembly.Proofs.LowerCase
import ComponentAssembly.Proofs.OrderedMaps
import Mathlib.Data.Prod.Lex
import Mathlib.Data.String.Basic

/-!
# A cache keeps the least of what it was offered

A cache to which entries were added one after the other is told by the entries that were offered to it
(`Cache.Holds`): under each category and key it has the least of them, and nothing where none was
offered.  Neither the order of the offers nor their number can be told from it:

    c.Holds offers → d.Holds offers → c.Full → d.Full → c = d                    (Cache.Holds.unique)

Adding an entry is one step (`Cache.inserted`, `Cache.Holds.inserted`); merging and reading add the
entries of categories one after the other (`Cache.insertedAll`, `Cache.merge_fst`,
`Cache.ofCategories_fst`).
-/

namespace ComponentAssembly

/-! ## Entries -/

namespace PluginEntry

/-- What decides between two entries for one key. -/
def rank (e : PluginEntry) : String ×ₗ String ×ₗ Bool ×ₗ Bool :=
  toLex (e.className, toLex (e.name, toLex (e.printable, e.defer)))

/-- An entry under the lower form of its category. -/
def lowered (e : PluginEntry) : PluginEntry :=
  { e with category := Text.lower e.category }

/-- An entry belongs under a key of a category. -/
def IsAt (e : PluginEntry) (category key : String) : Prop :=
  e.category = category ∧ e.key = key

@[simp]
theorem staysBefore_iff (a b : PluginEntry) : a.staysBefore b = true ↔ a.rank ≤ b.rank := by
  unfold staysBefore rank
  simp only [Prod.Lex.toLex_le_toLex]
  by_cases hclass : a.className = b.className
  · by_cases hname : a.name = b.name
    · cases a.printable <;> cases b.printable <;> cases a.defer <;> cases b.defer <;>
        simp [hclass, hname]
    · simp [hclass, hname]
  · simp [hclass]

theorem eq_of_rank {a b : PluginEntry} {category key : String} (h : a.rank = b.rank)
    (ha : a.IsAt category key) (hb : b.IsAt category key) : a = b := by
  obtain ⟨key₁, class₁, name₁, printable₁, defer₁, category₁⟩ := a
  obtain ⟨key₂, class₂, name₂, printable₂, defer₂, category₂⟩ := b
  simp only [rank, EmbeddingLike.apply_eq_iff_eq, Prod.mk.injEq] at h
  simp only [IsAt] at ha hb
  simp [h, ha, hb]

@[simp]
theorem lower_category_lowered (e : PluginEntry) :
    Text.lower e.lowered.category = e.lowered.category :=
  Text.lower_lower e.category

end PluginEntry

/-- An entry is the least that some offer; there is none only if nothing is offered. -/
def LeastOf (offers : PluginEntry → Prop) : Option PluginEntry → Prop
  | none => ∀ e, ¬ offers e
  | some e => offers e ∧ ∀ other, offers other → e.rank ≤ other.rank

theorem LeastOf.congr {offers others : PluginEntry → Prop} {o : Option PluginEntry}
    (h : LeastOf offers o) (hsame : ∀ e, offers e ↔ others e) : LeastOf others o := by
  have heq : offers = others := funext fun e => propext (hsame e)
  rwa [heq] at h

namespace Cache

/-- The entry under a key of a category. -/
def at? (c : Cache) (category key : String) : Option PluginEntry :=
  (c.categories.get? category).bind (·.get? key)

/-- The maps of a cache are in order. -/
structure Tidy (c : Cache) : Prop where
  ascending : c.categories.Ascending
  entries : ∀ category es, (category, es) ∈ c.categories → es.Ascending

def Full (c : Cache) : Prop :=
  ∀ category es, (category, es) ∈ c.categories → es ≠ []

/-- A cache has the least of the entries that were offered to it under each category and key. -/
structure Holds (c : Cache) (offers : PluginEntry → Prop) : Prop extends c.Tidy where
  lowered : ∀ e, offers e → Text.lower e.category = e.category
  least : ∀ category key, LeastOf (fun e => offers e ∧ e.IsAt category key) (c.at? category key)

variable {c d : Cache} {offers : PluginEntry → Prop}

/-! ## What is told apart -/

/-- Caches are equal if they are in order, without empty categories, and have the same entries. -/
theorem eq_of_at? (hc : c.Tidy) (hd : d.Tidy) (hfullc : c.Full) (hfulld : d.Full)
    (h : ∀ category key, c.at? category key = d.at? category key) : c = d := by
  obtain ⟨cs⟩ := c
  obtain ⟨ds⟩ := d
  congr 1
  -- A category that one of them has is there in the other, since it has an entry.
  have hthere : ∀ {as bs : Ordered CategoryEntries}, Full ⟨as⟩ →
      (∀ category key, at? ⟨as⟩ category key = at? ⟨bs⟩ category key) → ∀ category,
        bs.get? category = none → as.get? category = none := by
    intro as bs hfull hsame category hnone
    cases hes : as.get? category with
    | none => rfl
    | some es =>
      have hmem := Ordered.mem_of_get? hes
      obtain ⟨⟨key, e⟩, rest, rfl⟩ := List.exists_cons_of_ne_nil (hfull category es hmem)
      have hkey := hsame category key
      simp [at?, hes, hnone, Ordered.get?_cons] at hkey
  refine Ordered.ext hc.ascending hd.ascending fun category => ?_
  cases hes : cs.get? category with
  | none => exact (hthere hfulld (fun category key => (h category key).symm) category hes).symm
  | some es =>
    cases hfs : ds.get? category with
    | none => rw [hthere hfullc h category hfs] at hes; cases hes
    | some fs =>
      congr 1
      refine Ordered.ext (hc.entries _ _ (Ordered.mem_of_get? hes))
        (hd.entries _ _ (Ordered.mem_of_get? hfs)) fun key => ?_
      have hkey := h category key
      simpa [at?, hes, hfs] using hkey

theorem Holds.at?_eq (hc : c.Holds offers) (hd : d.Holds offers) (category key : String) :
    c.at? category key = d.at? category key := by
  have hleastc := hc.least category key
  have hleastd := hd.least category key
  cases hcat : c.at? category key with
  | none =>
    rw [hcat] at hleastc
    cases hdat : d.at? category key with
    | none => rfl
    | some e =>
      rw [hdat] at hleastd
      exact absurd hleastd.1 (hleastc e)
  | some e =>
    rw [hcat] at hleastc
    cases hdat : d.at? category key with
    | none =>
      rw [hdat] at hleastd
      exact absurd hleastc.1 (hleastd e)
    | some f =>
      rw [hdat] at hleastd
      have hrank := le_antisymm (hleastc.2 f hleastd.1) (hleastd.2 e hleastc.1)
      rw [PluginEntry.eq_of_rank hrank hleastc.1.2 hleastd.1.2]

/-- Caches that were offered the same have the same. -/
theorem Holds.unique (hc : c.Holds offers) (hd : d.Holds offers) (hfullc : c.Full)
    (hfulld : d.Full) : c = d :=
  eq_of_at? hc.toTidy hd.toTidy hfullc hfulld (hc.at?_eq hd)

theorem Holds.congr {others : PluginEntry → Prop} (h : c.Holds offers)
    (hsame : ∀ e, offers e ↔ others e) : c.Holds others := by
  have heq : offers = others := funext fun e => propext (hsame e)
  rwa [heq] at h

/-- Offers that are no less than others for the same place make no difference. -/
theorem Holds.of_offers {fewer : PluginEntry → Prop} (h : c.Holds fewer)
    (hfewer : ∀ e, fewer e → offers e) (hlowered : ∀ e, offers e → Text.lower e.category = e.category)
    (hless : ∀ e, offers e → ∃ f, fewer f ∧ f.IsAt e.category e.key ∧ f.rank ≤ e.rank) :
    c.Holds offers where
  toTidy := h.toTidy
  lowered := hlowered
  least category key := by
    have hleast := h.least category key
    cases hat : c.at? category key with
    | none =>
      rw [hat] at hleast
      rintro e ⟨he, rfl, rfl⟩
      obtain ⟨f, hf, hplace, -⟩ := hless e he
      exact hleast f ⟨hf, hplace⟩
    | some first =>
      rw [hat] at hleast
      refine ⟨⟨hfewer first hleast.1.1, hleast.1.2⟩, ?_⟩
      rintro e ⟨he, rfl, rfl⟩
      obtain ⟨f, hf, hplace, hrank⟩ := hless e he
      exact (hleast.2 f ⟨hf, hplace⟩).trans hrank

/-! ## Insertion -/

theorem holds_empty : Holds {} fun _ => False where
  ascending := .nil
  entries _ _ h := by cases h
  lowered _ h := h.elim
  least _ _ := fun _ h => h.1

theorem full_empty : Full {} :=
  fun _ _ h => by cases h

/-- A cache with an entry in the place of its category and key. -/
def placed (c : Cache) (e : PluginEntry) : Cache :=
  c.setCategory e.category ((c.entries e.category).set e.key e)

theorem get?_entries (c : Cache) {category : String} (h : Text.lower category = category)
    (key : String) : (c.entries category).get? key = c.at? category key := by
  unfold entries category? at?
  rw [h]
  cases c.categories.get? category <;> rfl

theorem at?_placed (c : Cache) {e : PluginEntry} (h : Text.lower e.category = e.category)
    (category key : String) : (c.placed e).at? category key =
      if category = e.category ∧ key = e.key then some e else c.at? category key := by
  unfold placed setCategory at?
  rw [Ordered.get?_set, h]
  by_cases hcategory : category = e.category
  · rw [if_pos hcategory, Option.bind_some, Ordered.get?_set, get?_entries c h]
    subst hcategory
    simp [at?]
  · simp [hcategory]

theorem Tidy.entries_ascending (h : c.Tidy) (category : String) :
    (c.entries category).Ascending := by
  unfold Cache.entries category?
  cases hes : c.categories.get? (Text.lower category) with
  | none => exact .nil
  | some es => exact h.entries _ _ (Ordered.mem_of_get? hes)

theorem Tidy.setCategory (h : c.Tidy) (category : String) {es : CategoryEntries}
    (hes : es.Ascending) : (c.setCategory category es).Tidy where
  ascending := Ordered.ascending_set h.ascending _ _
  entries other fs hmem := by
    rcases Ordered.mem_of_mem_set hmem with heq | hmem
    · cases heq
      exact hes
    · exact h.entries other fs hmem

theorem Tidy.placed (h : c.Tidy) (e : PluginEntry) : (c.placed e).Tidy :=
  h.setCategory _ (Ordered.ascending_set (h.entries_ascending _) _ _)

theorem Full.placed (h : c.Full) (e : PluginEntry) : (c.placed e).Full := by
  intro category es hmem hnil
  rcases Ordered.mem_of_mem_set hmem with heq | hmem
  · cases heq
    have hset := Ordered.get?_set (c.entries e.category) e.key e.key e
    rw [hnil, if_pos rfl] at hset
    cases hset
  · exact h category es hmem hnil

/-- A cache with one more entry, which is put in its place unless one is there that is not greater. -/
def inserted (c : Cache) (e : PluginEntry) : Cache :=
  match c.at? e.lowered.category e.key with
  | none => c.placed e.lowered
  | some old => if old.staysBefore e.lowered then c else c.placed e.lowered

theorem insert_fst (c : Cache) (e : PluginEntry) (j : Journal) : (c.insert e j).1 = c.inserted e := by
  have hget : (c.entries e.lowered.category).get? e.key = c.at? e.lowered.category e.key :=
    c.get?_entries e.lower_category_lowered e.key
  -- An entry stays before itself.
  have hself : e.lowered.staysBefore e.lowered = true := by
    rw [PluginEntry.staysBefore_iff]
  unfold insert inserted
  rw [← hget]
  simp only [PluginEntry.lowered] at hself ⊢
  cases (c.entries (Text.lower e.category)).get? e.key with
  | none => rfl
  | some old =>
    by_cases heq : old = { e with category := Text.lower e.category }
    · simp only [heq, hself]
      rfl
    · by_cases hstays : old.staysBefore { e with category := Text.lower e.category } = true
      · simp only [heq, hstays]
        rfl
      · simp only [heq, hstays]
        rfl

/-- What is offered to a cache is all that it has the least of. -/
theorem Holds.inserted (h : c.Holds offers) (e : PluginEntry) :
    (c.inserted e).Holds fun o => offers o ∨ o = e.lowered := by
  have hlowered : ∀ o, offers o ∨ o = e.lowered → Text.lower o.category = o.category := by
    rintro o (ho | rfl)
    · exact h.lowered o ho
    · exact e.lower_category_lowered
  -- If the entry is put in its place, no offer for the place is less.
  have hplaced : (∀ o, offers o → o.IsAt e.lowered.category e.key → e.lowered.rank ≤ o.rank) →
      (c.placed e.lowered).Holds fun o => offers o ∨ o = e.lowered := by
    intro hless
    refine { toTidy := h.toTidy.placed e.lowered, lowered := hlowered, least := ?_ }
    intro category key
    rw [at?_placed c e.lower_category_lowered]
    by_cases hplace : category = e.lowered.category ∧ key = e.lowered.key
    · obtain ⟨rfl, rfl⟩ := hplace
      rw [if_pos ⟨rfl, rfl⟩]
      refine ⟨⟨.inr rfl, rfl, rfl⟩, ?_⟩
      rintro o ⟨ho | rfl, hat⟩
      · exact hless o ho hat
      · exact le_rfl
    · rw [if_neg hplace]
      refine (h.least category key).congr fun o => ?_
      refine ⟨fun ho => ⟨.inl ho.1, ho.2⟩, ?_⟩
      rintro ⟨ho | rfl, hat⟩
      · exact ⟨ho, hat⟩
      · exact absurd ⟨hat.1.symm, hat.2.symm⟩ hplace
  have hleast := h.least e.lowered.category e.key
  unfold Cache.inserted
  cases hat : c.at? e.lowered.category e.key with
  | none =>
    rw [hat] at hleast
    exact hplaced fun o ho hplace => absurd ⟨ho, hplace⟩ (hleast o)
  | some old =>
    rw [hat] at hleast
    dsimp only
    by_cases hstays : old.staysBefore e.lowered = true
    · rw [if_pos hstays]
      rw [PluginEntry.staysBefore_iff] at hstays
      refine h.of_offers (fun o => .inl) hlowered ?_
      rintro o (ho | rfl)
      · exact ⟨o, ho, ⟨rfl, rfl⟩, le_rfl⟩
      · exact ⟨old, hleast.1.1, hleast.1.2, hstays⟩
    · rw [if_neg hstays]
      rw [PluginEntry.staysBefore_iff, not_le] at hstays
      exact hplaced fun o ho hplace => hstays.le.trans (hleast.2 o ⟨ho, hplace⟩)

theorem Full.inserted (h : c.Full) (e : PluginEntry) : (c.inserted e).Full := by
  unfold Cache.inserted
  split
  · exact h.placed _
  · split
    · exact h
    · exact h.placed _

theorem inserted_lowered (c : Cache) (e : PluginEntry) : c.inserted e.lowered = c.inserted e := by
  have htwice : e.lowered.lowered = e.lowered := by
    simp only [PluginEntry.lowered, Text.lower_lower]
  unfold inserted
  rw [htwice]
  rfl

/-! ## Many insertions -/

def insertedAll (c : Cache) (es : List PluginEntry) : Cache := es.foldl inserted c

/-- The entries of categories, each with the category and the key that it stands under. -/
def stamped (categories : Ordered CategoryEntries) : List PluginEntry :=
  categories.flatMap fun (category, entries) => entries.map fun (key, e) => { e with category, key }

theorem Holds.insertedAll (h : c.Holds offers) (es : List PluginEntry) :
    (c.insertedAll es).Holds fun o => offers o ∨ ∃ e ∈ es, o = e.lowered := by
  induction es generalizing c offers with
  | nil => exact h.congr fun o => by simp
  | cons e es ih => exact (ih (h.inserted e)).congr fun o => by simp [or_assoc]

theorem Full.insertedAll (h : c.Full) (es : List PluginEntry) : (c.insertedAll es).Full := by
  induction es generalizing c with
  | nil => exact h
  | cons e es ih => exact ih (h.inserted e)

theorem foldlM_fst {α : Type} {f : Cache → α → StateM Journal Cache} {g : Cache → α → Cache}
    (h : ∀ c a j, (f c a j).1 = g c a) (l : List α) (c : Cache) (j : Journal) :
    (l.foldlM f c j).1 = l.foldl g c := by
  induction l generalizing c j with
  | nil => rfl
  | cons a l ih =>
    rw [List.foldlM_cons, List.foldl_cons, ← h c a j]
    exact ih (f c a j).1 (f c a j).2

theorem insertCategory_fst (c : Cache) (category : String) (entries : CategoryEntries)
    (j : Journal) : (c.insertCategory category entries j).1 =
      c.insertedAll (entries.map fun (key, e) => { e with category, key }) := by
  have hstep : ∀ (c : Cache) (entry : String × PluginEntry) (j : Journal),
      (c.insert { entry.2 with category, key := entry.1 } j).1 =
        c.inserted { entry.2 with category, key := entry.1 } :=
    fun c entry j => c.insert_fst _ j
  rw [insertedAll, List.foldl_map]
  exact foldlM_fst hstep entries c j

theorem merge_fst (c other : Cache) (j : Journal) :
    (c.merge other j).1 = c.insertedAll (stamped other.categories) := by
  have hstep : ∀ (c : Cache) (entry : String × CategoryEntries) (j : Journal),
      (c.insertCategory entry.1 entry.2 j).1 =
        c.insertedAll (entry.2.map fun (key, e) => { e with category := entry.1, key }) :=
    fun c entry j => c.insertCategory_fst _ _ j
  rw [insertedAll, stamped, List.foldl_flatMap]
  exact foldlM_fst hstep other.categories c j

theorem ofCategories_fst (categories : Ordered CategoryEntries) (j : Journal) :
    (ofCategories categories j).1 = insertedAll {} (stamped categories) := by
  have hstep : ∀ (c : Cache) (entry : String × CategoryEntries) (j : Journal),
      (c.insertCategory (Text.lower entry.1) entry.2 j).1 =
        c.insertedAll (entry.2.map fun (key, e) => { e with category := entry.1, key }) := by
    intro c entry j
    have hlowered : ∀ (c : Cache) (e : String × PluginEntry),
        c.inserted { e.2 with category := Text.lower entry.1, key := e.1 } =
          c.inserted { e.2 with category := entry.1, key := e.1 } :=
      fun c e => c.inserted_lowered { e.2 with category := entry.1, key := e.1 }
    rw [insertCategory_fst, insertedAll, insertedAll, List.foldl_map, List.foldl_map]
    simp only [hlowered]
  rw [insertedAll, stamped, List.foldl_flatMap]
  exact foldlM_fst hstep categories {} j

end Cache

end ComponentAssembly

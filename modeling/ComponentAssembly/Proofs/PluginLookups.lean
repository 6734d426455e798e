import ComponentAssembly.Descriptor.Registry
import ComponentAssembly.Instance
import ComponentAssembly.Proofs.Offers

/-!
# What a registry finds

A plugin type is found by the classes and descriptors of the moment (`Registry.resolve?`).  All that a
registry keeps of earlier lookups is what it would find anew (`Registry.Coherent`), and lookups only add
to it (`Registry.Learns`), so their answers depend on classes and descriptors alone:

    plugin? category key     answers with r.resolve? category key
    plugins category         answers with r.listed category
    annotate category n      answers with n.annotatedBy (r.resolve? category)

`Registry.Answers` puts such lookups together one after the other; `Registry.Request.run_lookup` sums up
what they do.  Registrations drop all that was found, and change classes and descriptors alone
(`Registry.Request.run_registration`).
-/

namespace ComponentAssembly

/-- The entries of a category are found whatever the case of its name. -/
@[simp]
theorem Cache.entries_lower (c : Cache) (name : String) :
    c.entries (Text.lower name) = c.entries name := by
  unfold Cache.entries Cache.category?
  rw [Text.lower_lower]

mutual

/-- A node with what is known by name as the plugin types of those of its nodes that have none. -/
def Node.annotatedBy {α : Type} (known : String → Option PluginType) : Node α → Node α
  | ⟨name, plugin, attributes, text, children, object⟩ =>
    { name, plugin := plugin.or (known name), attributes, text,
      children := Node.allAnnotatedBy known children, object }

def Node.allAnnotatedBy {α : Type} (known : String → Option PluginType) :
    List (Node α) → List (Node α)
  | [] => []
  | n :: rest => n.annotatedBy known :: Node.allAnnotatedBy known rest

end

namespace Registry

/-! ## Requests -/

/-- What a registry is asked for. -/
inductive Request where
  | registerClass (c : PluginClass)
  | registerPlugin (category name : String) (c : PluginClass)
  | mergeCache (c : Cache)
  | plugin (category key : String)
  | plugins (category : String)
  | annotate (category : String) (n : Node Instance)

/-- What a request is answered with. -/
inductive Reply where
  | done
  | plugin (p : Option SharedPlugin)
  | plugins (ts : List PluginType)
  | annotated (n : Node Instance)

/-- A reply without the identity of what is shared. -/
def Reply.anonymous : Reply → Reply
  | .plugin p => .plugin (p.map fun p => { p with id := 0 })
  | reply => reply

namespace Request

def run : Request → Registering Reply
  | registerClass c => (fun _ => .done) <$> Registry.registerClass c
  | registerPlugin category name c =>
    (fun _ => .done) <$> Registry.registerPlugin category name c
  | mergeCache c => (fun _ => .done) <$> Registry.mergeCache c
  | plugin category key => .plugin <$> plugin? category key
  | plugins category => .plugins <$> Registry.plugins category
  | annotate category n => .annotated <$> Registry.annotate category n

/-- Whether a request registers nothing. -/
def isLookup : Request → Bool
  | plugin .. => true
  | plugins _ => true
  | annotate .. => true
  | _ => false

end Request

/-- The registries that requests lead to. -/
inductive Reachable : Registry → Prop
  | empty : Reachable {}
  | step {r : Registry} (h : Reachable r) (q : Request) (j : Journal) : Reachable (q.run r j).1.2

def after : List Request → Registry → Journal → Registry
  | [], r, _ => r
  | q :: qs, r, j => after qs (q.run r j).1.2 (q.run r j).2

theorem reachable_after {r : Registry} (h : r.Reachable) (qs : List Request) (j : Journal) :
    (after qs r j).Reachable := by
  induction qs generalizing r j with
  | nil => exact h
  | cons q qs ih => exact ih (.step h q j) _

/-! ## What is found -/

/-- The plugin type of a category and a key, by the classes and descriptors of the moment. -/
def resolve? (r : Registry) (category key : String) : Option PluginType :=
  ((r.cache.entries category).get? (Text.lower key)).bind fun entry =>
    (r.class? entry.className).map fun pluginClass => { entry, pluginClass }

/-- What a registry has found for a category and a key. -/
def remembered? (r : Registry) (category key : String) : Option SharedPlugin :=
  (r.found.find? fun (l, _) => l == (Text.lower category, Text.lower key)).map (·.2)

/-- All that a registry has found is up to date. -/
def Coherent (r : Registry) : Prop :=
  ∀ category key p, r.remembered? category key = some p → r.resolve? category key = some p.plugin

/-- What becomes of a registry by lookups. -/
structure Learns (r t : Registry) : Prop where
  classes : t.classes = r.classes
  cache : t.cache = r.cache
  kept : ∀ category key p, r.remembered? category key = some p → t.remembered? category key = some p
  coherent : r.Coherent → t.Coherent

variable {r t u : Registry} {category key : String}

theorem resolve?_eq_some_iff {plugin : PluginType} : r.resolve? category key = some plugin ↔
    (r.cache.entries category).get? (Text.lower key) = some plugin.entry ∧
      r.class? plugin.entry.className = some plugin.pluginClass := by
  obtain ⟨entry, pluginClass⟩ := plugin
  simp only [resolve?, Option.bind_eq_some_iff, Option.map_eq_some_iff]
  constructor
  · rintro ⟨entry', hentry, pluginClass', hclass, heq⟩
    cases heq
    exact ⟨hentry, hclass⟩
  · rintro ⟨hentry, hclass⟩
    exact ⟨entry, hentry, pluginClass, hclass, rfl⟩

theorem resolve?_same (hclasses : t.classes = r.classes) (hcache : t.cache = r.cache) :
    t.resolve? = r.resolve? := by
  funext category key
  unfold resolve? class?
  rw [hclasses, hcache]

theorem coherent_of_nothing (h : r.found = []) : r.Coherent := by
  intro category key p hp
  simp [remembered?, h] at hp

theorem Learns.refl (r : Registry) : r.Learns r :=
  ⟨rfl, rfl, fun _ _ _ h => h, fun h => h⟩

theorem Learns.trans (h : r.Learns t) (h' : t.Learns u) : r.Learns u where
  classes := h'.classes.trans h.classes
  cache := h'.cache.trans h.cache
  kept category key p hp := h'.kept category key p (h.kept category key p hp)
  coherent hr := h'.coherent (h.coherent hr)

theorem Learns.resolve? (h : r.Learns t) : t.resolve? = r.resolve? :=
  resolve?_same h.classes h.cache

/-! ## One lookup -/

/-- A registry that has found one more plugin type. -/
def learned (r : Registry) (category key : String) (plugin : PluginType) : Registry :=
  { r with
    found := r.found ++ [((Text.lower category, Text.lower key), { id := r.shared, plugin })]
    shared := r.shared + 1 }

theorem remembered?_learned (r : Registry) (category key : String) (plugin : PluginType)
    (other name : String) : (r.learned category key plugin).remembered? other name =
      (r.remembered? other name).or
        (if (Text.lower category, Text.lower key) = (Text.lower other, Text.lower name) then
          some { id := r.shared, plugin } else none) := by
  unfold remembered? learned
  rw [List.find?_append]
  cases r.found.find? _ with
  | some entry => rfl
  | none =>
    by_cases hsame : (Text.lower category, Text.lower key) = (Text.lower other, Text.lower name)
    · simp [hsame]
    · rw [if_neg hsame, List.find?_cons_of_neg (by simpa using hsame)]
      rfl

theorem resolve?_congr {other name : String} (r : Registry)
    (h : (Text.lower category, Text.lower key) = (Text.lower other, Text.lower name)) :
    r.resolve? category key = r.resolve? other name := by
  obtain ⟨hcategory, hkey⟩ := Prod.mk.inj h
  unfold resolve?
  rw [← r.cache.entries_lower category, ← r.cache.entries_lower other, hcategory, hkey]

theorem learns_learned {plugin : PluginType} (hplugin : r.resolve? category key = some plugin) :
    r.Learns (r.learned category key plugin) where
  classes := rfl
  cache := rfl
  kept other name p hp := by
    rw [remembered?_learned, hp]
    rfl
  coherent hr other name p hp := by
    show r.resolve? other name = some p.plugin
    rw [remembered?_learned] at hp
    cases hold : r.remembered? other name with
    | some old =>
      rw [hold] at hp
      cases hp
      exact hr other name _ hold
    | none =>
      rw [hold, Option.none_or] at hp
      split at hp
      · next hsame =>
        cases hp
        rw [← r.resolve?_congr hsame, hplugin]
      · cases hp

theorem get_then {α : Type} (f : Registry → Registering α) (r : Registry) (j : Journal) :
    (get >>= f : Registering α) r j = f r r j := rfl

theorem plugin?_remembered {p : SharedPlugin} (h : r.remembered? category key = some p) (j : Journal) :
    plugin? category key r j = ((some p, r), j) := by
  obtain ⟨entry, hfind, rfl⟩ := Option.map_eq_some_iff.mp h
  unfold plugin?
  rw [get_then, hfind]
  rfl

/-- Where nothing is found yet, the registry looks at its entries and classes. -/
theorem plugin?_anew (h : r.remembered? category key = none) (j : Journal) :
    ∃ k, plugin? category key r j = match r.resolve? category key with
      | some plugin => ((some { id := r.shared, plugin }, r.learned category key plugin), k)
      | none => ((none, r), k) := by
  have hfind : (r.found.find? fun (l, _) => l == (Text.lower category, Text.lower key)) = none :=
    Option.map_eq_none_iff.mp h
  unfold resolve? plugin?
  rw [← r.cache.entries_lower, get_then, hfind]
  cases (r.cache.entries (Text.lower category)).get? (Text.lower key) with
  | none => exact ⟨j, rfl⟩
  | some entry =>
    dsimp only [Option.bind_some]
    cases r.class? entry.className with
    | none => exact ⟨_, rfl⟩
    | some pluginClass => exact ⟨j, rfl⟩

theorem remembered?_learned_self {plugin : PluginType} (h : r.remembered? category key = none) :
    (r.learned category key plugin).remembered? category key = some { id := r.shared, plugin } := by
  rw [remembered?_learned, h, Option.none_or, if_pos rfl]

/-- A lookup finds what is to be found anew, and from then on the registry knows it. -/
theorem plugin?_spec (hr : r.Coherent) (category key : String) (j : Journal) :
    (plugin? category key r j).1.1.map (·.plugin) = r.resolve? category key ∧
      r.Learns (plugin? category key r j).1.2 ∧
      ∀ p, (plugin? category key r j).1.1 = some p →
        (plugin? category key r j).1.2.remembered? category key = some p := by
  cases hold : r.remembered? category key with
  | some p =>
    rw [plugin?_remembered hold j]
    refine ⟨(hr category key p hold).symm, .refl r, ?_⟩
    rintro _ ⟨⟩
    exact hold
  | none =>
    obtain ⟨k, hanew⟩ := plugin?_anew hold j
    rw [hanew]
    cases hplugin : r.resolve? category key with
    | none => exact ⟨rfl, .refl r, fun _ h => by cases h⟩
    | some plugin =>
      refine ⟨rfl, learns_learned hplugin, ?_⟩
      rintro _ ⟨⟩
      exact remembered?_learned_self hold

/-! ## Lookups one after the other -/

section Answers

variable {α β : Type} {m : Registering α} {P : α → Prop} {Q : β → Prop}

/-- An action only looks up, also after other lookups, and its answer is one of those expected. -/
def Answers (r : Registry) (m : Registering α) (P : α → Prop) : Prop :=
  ∀ t j, r.Learns t → P (m t j).1.1 ∧ t.Learns (m t j).1.2

theorem answers_pure {a : α} (h : P a) : r.Answers (pure a) P :=
  fun t _ _ => ⟨h, .refl t⟩

theorem answers_get : r.Answers get r.Learns :=
  fun t _ ht => ⟨ht, .refl t⟩

theorem Answers.bind (hm : r.Answers m P) {f : α → Registering β}
    (hf : ∀ a, P a → r.Answers (f a) Q) : r.Answers (m >>= f) Q := by
  intro t j ht
  obtain ⟨ha, hlearns⟩ := hm t j ht
  obtain ⟨hb, hmore⟩ := hf _ ha _ (m t j).2 (ht.trans hlearns)
  exact ⟨hb, hlearns.trans hmore⟩

theorem Answers.map (hm : r.Answers m P) {g : α → β} (h : ∀ a, P a → Q (g a)) :
    r.Answers (g <$> m) Q := by
  intro t j ht
  obtain ⟨ha, hlearns⟩ := hm t j ht
  exact ⟨h _ ha, hlearns⟩

theorem Answers.mapM {ι γ : Type} {f : ι → Registering α} {g : α → γ} {expected : ι → γ}
    (h : ∀ i, r.Answers (f i) fun a => g a = expected i) (is : List ι) :
    r.Answers (is.mapM f) fun as => as.map g = is.map expected := by
  induction is with
  | nil =>
    rw [List.mapM_nil]
    exact answers_pure rfl
  | cons i is ih =>
    rw [List.mapM_cons]
    refine (h i).bind fun a ha => ih.bind fun as has => answers_pure ?_
    rw [List.map_cons, List.map_cons, ha, has]

end Answers

/-- The plugin types of a category, by the classes and descriptors of the moment. -/
def listed (r : Registry) (category : String) : List PluginType :=
  (Ordered.keys (r.cache.entries category)).filterMap (r.resolve? category)

theorem answers_plugin? (hr : r.Coherent) (category key : String) :
    r.Answers (plugin? category key) fun p => p.map (·.plugin) = r.resolve? category key := by
  intro t j ht
  obtain ⟨hanswer, hlearns, -⟩ := plugin?_spec (ht.coherent hr) category key j
  exact ⟨hanswer.trans (by rw [ht.resolve?]), hlearns⟩

theorem answers_plugins (hr : r.Coherent) (category : String) :
    r.Answers (plugins category) (· = r.listed category) := by
  refine answers_get.bind fun t ht => ?_
  rw [ht.cache]
  refine (Answers.mapM (answers_plugin? hr category) _).bind fun ps hps => answers_pure ?_
  calc ps.filterMap (fun p => p.map (·.plugin))
      = (ps.map fun p => p.map (·.plugin)).filterMap id := by rw [List.filterMap_map]; rfl
    _ = r.listed category := by rw [hps, List.filterMap_map]; rfl

mutual

theorem answers_annotate (hr : r.Coherent) (category : String) {α : Type} (n : Node α) :
    r.Answers (annotate category n) (· = n.annotatedBy (r.resolve? category)) := by
  obtain ⟨name, plugin, attributes, text, children, object⟩ := n
  have hchildren := answers_annotateAll hr category children
  unfold annotate Node.annotatedBy
  cases plugin with
  | some p =>
    refine (answers_pure (P := (· = some p)) rfl).bind ?_
    rintro _ rfl
    refine hchildren.bind ?_
    rintro _ rfl
    exact answers_pure rfl
  | none =>
    refine (answers_plugin? hr category name).bind fun found hfound => ?_
    refine (answers_pure (P := (· = r.resolve? category name)) hfound).bind ?_
    rintro _ rfl
    refine hchildren.bind ?_
    rintro _ rfl
    exact answers_pure rfl

theorem answers_annotateAll (hr : r.Coherent) (category : String) {α : Type} (nodes : List (Node α)) :
    r.Answers (annotateAll category nodes) (· = Node.allAnnotatedBy (r.resolve? category) nodes) := by
  match nodes with
  | [] =>
    unfold annotateAll Node.allAnnotatedBy
    exact answers_pure rfl
  | n :: rest =>
    unfold annotateAll Node.allAnnotatedBy
    refine (answers_annotate hr category n).bind ?_
    rintro _ rfl
    refine (answers_annotateAll hr category rest).bind ?_
    rintro _ rfl
    exact answers_pure rfl

end

/-! ## Every request -/

namespace Request

/-- What a request is answered with, by the classes and descriptors of the moment. -/
def answer (r : Registry) : Request → Reply
  | plugin category key => .plugin ((r.resolve? category key).map fun plugin => { id := 0, plugin })
  | plugins category => .plugins (r.listed category)
  | annotate category n => .annotated (n.annotatedBy (r.resolve? category))
  | _ => .done

def descriptors (c : Cache) : Request → Cache
  | registerPlugin category name pluginClass =>
    c.inserted (PluginEntry.of name pluginClass.className category)
  | mergeCache other => c.insertedAll (Cache.stamped other.categories)
  | _ => c

def classes (known : List (String × PluginClass)) : Request → List (String × PluginClass)
  | registerClass c => (c.className, c) :: known.filter (·.1 != c.className)
  | registerPlugin _ _ c => (c.className, c) :: known.filter (·.1 != c.className)
  | _ => known

/-- Lookups answer by the classes and descriptors of the moment, and only learn. -/
theorem run_lookup (hr : r.Coherent) {q : Request} (hq : q.isLookup = true) (j : Journal) :
    (q.run r j).1.1.anonymous = q.answer r ∧ r.Learns (q.run r j).1.2 := by
  have hanswers : r.Answers q.run fun reply => reply.anonymous = q.answer r := by
    cases q with
    | plugin category key =>
      refine (answers_plugin? hr category key).map fun p hp => ?_
      simp only [answer, Reply.anonymous, ← hp, Option.map_map]
      rfl
    | plugins category =>
      refine (answers_plugins hr category).map ?_
      rintro _ rfl
      rfl
    | annotate category n =>
      refine (answers_annotate hr category n).map ?_
      rintro _ rfl
      rfl
    | registerClass _ => cases hq
    | registerPlugin _ _ _ => cases hq
    | mergeCache _ => cases hq
  exact hanswers r j (.refl r)

/-- Registrations drop all that was found. -/
theorem run_registration (r : Registry) {q : Request} (hq : q.isLookup = false) (j : Journal) :
    (q.run r j).1.1.anonymous = q.answer r ∧ (q.run r j).1.2.found = [] ∧
      (q.run r j).1.2.classes = q.classes r.classes ∧
      (q.run r j).1.2.cache = q.descriptors r.cache := by
  cases q with
  | registerClass c => exact ⟨rfl, rfl, rfl, rfl⟩
  | registerPlugin category name c => exact ⟨rfl, rfl, rfl, r.cache.insert_fst _ _⟩
  | mergeCache c => exact ⟨rfl, rfl, rfl, r.cache.merge_fst c j⟩
  | plugin _ _ => cases hq
  | plugins _ => cases hq
  | annotate _ _ => cases hq

/-- What a request answers, and what it makes of classes and descriptors. -/
theorem run_spec (hr : r.Coherent) (q : Request) (j : Journal) :
    (q.run r j).1.1.anonymous = q.answer r ∧ (q.run r j).1.2.Coherent ∧
      (q.run r j).1.2.classes = q.classes r.classes ∧
      (q.run r j).1.2.cache = q.descriptors r.cache := by
  cases hq : q.isLookup with
  | false =>
    obtain ⟨hanswer, hfound, hregistered⟩ := run_registration r hq j
    exact ⟨hanswer, coherent_of_nothing hfound, hregistered⟩
  | true =>
    obtain ⟨hanswer, hlearns⟩ := run_lookup hr hq j
    have hsame : q.classes r.classes = r.classes ∧ q.descriptors r.cache = r.cache := by
      cases q <;> first | exact ⟨rfl, rfl⟩ | cases hq
    refine ⟨hanswer, hlearns.coherent hr, ?_⟩
    rw [hsame.1, hsame.2]
    exact ⟨hlearns.classes, hlearns.cache⟩

end Request

theorem Reachable.coherent (h : r.Reachable) : r.Coherent := by
  induction h with
  | empty => exact coherent_of_nothing rfl
  | step _ q j ih => exact (q.run_spec ih j).2.1

end Registry

end ComponentAssembly

import ComponentAssembly.Descriptor.Decode
import ComponentAssembly.Proofs.JsonTokens
import ComponentAssembly.Proofs.OrderedMaps
import Mathlib.Data.List.Forall2

/-!
# Written descriptors read back

The text of a cache falls into the tokens of its maps (`falls_toJson`), and reading takes the maps off
these tokens again (`reads_readMap`).  Only the categories of the entries are not written:

    readCategories c.toJson = .ok (c.categories with no category in the entries)
                                                                     (readCategories_toJson)
-/

namespace ComponentAssembly

open Json (Token Falls)

/-! ## Tokens of written maps -/

namespace Descriptor

/-- The tokens of a member of an object. -/
def memberTokens : String × List Token → List Token
  | (name, value) => .string (some name) :: .colon :: value

def objectTokens (members : List (String × List Token)) : List Token :=
  .openBrace :: ([.comma].intercalate (members.map memberTokens) ++ [.closeBrace])

def entryTokens (e : PluginEntry) : List Token :=
  objectTokens
    [("key", [.string (some e.key)]), ("className", [.string (some e.className)]),
      ("name", [.string (some e.name)]), ("printable", [.bool e.printable]),
      ("defer", [.bool e.defer])]

def categoryTokens (entries : CategoryEntries) : List Token :=
  objectTokens (entries.map fun (key, e) => (key, entryTokens e))

def cacheTokens (categories : Ordered CategoryEntries) : List Token :=
  objectTokens (categories.map fun (name, entries) => (name, categoryTokens entries))

/-- A written member falls into its name and the tokens of its value. -/
def FallsAs (member : String × String) (tokens : String × List Token) : Prop :=
  member.1 = tokens.1 ∧ Falls member.2.toList tokens.2

theorem falls_writeObject (indent : Nat) {members : List (String × String)}
    {tokens : List (String × List Token)} (h : List.Forall₂ FallsAs members tokens) :
    Falls (Cache.writeObject indent members).toList (objectTokens tokens) := by
  have hblanks : ∀ n, Falls (List.replicate n ' ') [] := by
    intro n
    refine .blanks fun c hc => ?_
    rw [List.eq_of_mem_replicate hc]
    rfl
  have hline : Falls ['\n'] [] := .blank rfl
  cases members with
  | nil =>
    cases h
    simp only [Cache.writeObject, String.reduceToList]
    exact Json.falls_openBrace.append Json.falls_closeBrace
  | cons first rest =>
    have hmember : ∀ (member : String × String) (tokens : String × List Token),
        FallsAs member tokens →
        Falls (String.toList (String.ofList (List.replicate (indent + 2) ' ')
          ++ Json.quote member.1 ++ ": " ++ member.2)) (memberTokens tokens) := by
      rintro ⟨name, value⟩ ⟨_, ts⟩ ⟨rfl, hvalue⟩
      simp only [String.toList_append, String.toList_ofList, String.reduceToList]
      exact (((hblanks _).append (Json.falls_quote name)).append Json.falls_colon).append hvalue
    have hmembers := Json.falls_comma.intercalate
      (List.forall₂_map_left_iff.mpr (List.forall₂_map_right_iff.mpr (h.imp hmember)))
    have hobject := (((Json.falls_openBrace.append hline).append hmembers).append hline).append
      ((hblanks indent).append Json.falls_closeBrace)
    unfold Cache.writeObject
    simp only [String.toList_append, String.toList_ofList, String.toList_intercalate, List.map_map,
      Function.comp_def, String.reduceToList, List.append_nil, List.nil_append,
      List.append_assoc] at hobject ⊢
    exact hobject

theorem falls_writeEntry (e : PluginEntry) : Falls (Cache.writeEntry e).toList (entryTokens e) := by
  have hbool : ∀ b, Falls (PluginEntry.boolText b).toList [.bool b] := by
    intro b
    cases b with
    | true =>
      simp only [PluginEntry.boolText, if_true, String.reduceToList]
      exact Json.falls_true
    | false =>
      simp only [PluginEntry.boolText, Bool.false_eq_true, if_false, String.reduceToList]
      exact Json.falls_false
  refine falls_writeObject 4 ?_
  refine .cons ⟨rfl, Json.falls_quote _⟩ (.cons ⟨rfl, Json.falls_quote _⟩
    (.cons ⟨rfl, Json.falls_quote _⟩ (.cons ⟨rfl, hbool _⟩ (.cons ⟨rfl, hbool _⟩ .nil))))

/-- The text of a cache falls into the tokens of its categories. -/
theorem falls_toJson (c : Cache) : Falls c.toJson.toList (cacheTokens c.categories) := by
  have hcategory : ∀ entries : CategoryEntries,
      Falls (Cache.writeObject 2 (entries.map fun (key, e) => (key, Cache.writeEntry e))).toList
        (categoryTokens entries) := by
    intro entries
    refine falls_writeObject 2 (List.forall₂_map_left_iff.mpr (List.forall₂_map_right_iff.mpr ?_))
    exact List.forall₂_same.mpr fun member _ => ⟨rfl, falls_writeEntry member.2⟩
  refine falls_writeObject 0 (List.forall₂_map_left_iff.mpr (List.forall₂_map_right_iff.mpr ?_))
  exact List.forall₂_same.mpr fun category _ => ⟨rfl, hcategory category.2⟩

/-! ## Reading -/

/-- Reading takes a value off its tokens, whatever follows them. -/
def Reads {α : Type} (read : Read α) (ts : List Token) (value : α) : Prop :=
  ∀ rest, read (ts ++ rest) = .ok (value, rest)

/-- A member reads as its name and the value of its tokens. -/
def ReadsAs {α : Type} (read : Read α) (tokens : String × List Token) (member : String × α) : Prop :=
  tokens.1 = member.1 ∧ Reads read tokens.2 member.2

theorem readMembers_member {α : Type} {read : Read α} {expect : Expect} (hexpect : expect ≠ .separator)
    {tokens : String × List Token} {member : String × α} (h : ReadsAs read tokens member) (fuel : Nat)
    (m : Ordered α) (rest : List Token) :
    readMembers read (fuel + 1) expect m (memberTokens tokens ++ rest) =
      readMembers read fuel .separator (m.set member.1 member.2) rest := by
  obtain ⟨name, ts⟩ := tokens
  obtain ⟨_, value⟩ := member
  obtain ⟨rfl, hread⟩ := h
  have hvalue : read (ts ++ rest) = .ok (value, rest) := hread rest
  cases expect with
  | separator => exact absurd rfl hexpect
  | first => simp [memberTokens, readMembers, readColon, hvalue, bind, Except.bind]
  | item => simp [memberTokens, readMembers, readColon, hvalue, bind, Except.bind]

/-- The rest of a map is put behind what was read of it so far. -/
theorem readMembers_rest {α : Type} {read : Read α} {tokens : List (String × List Token)}
    {members : Ordered α} (h : List.Forall₂ (ReadsAs read) tokens members) (hne : tokens ≠ [])
    {expect : Expect} (hexpect : expect ≠ .separator) {m : Ordered α}
    (hm : Ordered.Ascending (m ++ members)) {fuel : Nat} (hfuel : 2 * tokens.length ≤ fuel)
    (rest : List Token) :
    readMembers read fuel expect m
        ([.comma].intercalate (tokens.map memberTokens) ++ .closeBrace :: rest) =
      .ok (m ++ members, rest) := by
  induction h generalizing expect m fuel with
  | nil => exact absurd rfl hne
  | @cons first member tokens members hfirst hrest ih =>
    have hset : m.set member.1 member.2 = m ++ [member] := by
      refine Ordered.set_eq_append fun entry hentry => ?_
      exact (List.pairwise_append.mp hm).2.2 entry hentry member List.mem_cons_self
    rw [List.length_cons] at hfuel
    obtain ⟨fuel, rfl⟩ : ∃ k, fuel = k + 2 := ⟨fuel - 2, by omega⟩
    cases hrest with
    | nil =>
      simp only [List.map_cons, List.map_nil, List.intercalate_singleton]
      rw [readMembers_member hexpect hfirst, hset, readMembers]
    | @cons next nextMember tokens members hnext hrest =>
      have happend : m ++ [member] ++ nextMember :: members = m ++ member :: nextMember :: members :=
        List.append_assoc ..
      have hitem : Expect.item ≠ .separator := by decide
      have hlength : 2 * (next :: tokens).length ≤ fuel := by omega
      simp only [List.map_cons, List.intercalate_cons_cons, List.append_assoc] at ih ⊢
      rw [readMembers_member hexpect hfirst, hset, List.singleton_append, readMembers,
        ih (List.cons_ne_nil _ _) hitem (happend ▸ hm) hlength, happend]

theorem length_le_intercalate (tokens : List (String × List Token)) :
    2 * tokens.length ≤ ([.comma].intercalate (tokens.map memberTokens)).length := by
  induction tokens with
  | nil => exact Nat.le_refl _
  | cons first tokens ih =>
    have hfirst : 2 ≤ (memberTokens first).length := by
      simp [memberTokens]
    cases tokens with
    | nil => simpa [List.intercalate] using hfirst
    | cons next tokens =>
      simp only [List.map_cons, List.intercalate_cons_cons, List.length_append,
        List.length_cons] at ih ⊢
      omega

theorem reads_readMap {α : Type} {read : Read α} {tokens : List (String × List Token)}
    {m : Ordered α} (hm : m.Ascending) (h : List.Forall₂ (ReadsAs read) tokens m) :
    Reads (readMap read) (objectTokens tokens) m := by
  intro rest
  cases tokens with
  | nil =>
    cases h
    rfl
  | cons first tokens =>
    have hfirst : Expect.first ≠ .separator := by decide
    have hlength := length_le_intercalate (first :: tokens)
    have hrest := readMembers_rest h (List.cons_ne_nil _ _) hfirst (m := []) hm
      (Nat.le_trans hlength (Nat.le_add_right _ (rest.length + 2))) rest
    rw [objectTokens, List.cons_append, List.append_assoc, readMap, List.length_append]
    exact hrest

theorem reads_readEntry (e : PluginEntry) :
    Reads readEntry (entryTokens e) { e with category := "" } := by
  intro rest
  rfl

/-- An entry as it is written. -/
def unfiled (e : PluginEntry) : PluginEntry := { e with category := "" }

theorem ascending_map {α β : Type} {m : Ordered α} (hm : m.Ascending) (f : α → β) :
    Ordered.Ascending (m.map fun (key, v) => (key, f v)) :=
  List.pairwise_map.mpr hm

/-- **Written descriptors read back**: reading the text of a cache gives its categories, but for what
is not written of the entries. -/
theorem readCategories_toJson {c : Cache} (hc : c.categories.Ascending)
    (hentries : ∀ category entries, (category, entries) ∈ c.categories →
      Ordered.Ascending entries) :
    readCategories c.toJson = .ok (c.categories.map fun (category, entries) =>
      (category, entries.map fun (key, e) => (key, unfiled e))) := by
  have hcategory : ∀ entries : CategoryEntries, entries.Ascending →
      Reads (readMap readEntry) (categoryTokens entries)
        (entries.map fun (key, e) => (key, unfiled e)) := by
    intro entries hascending
    refine reads_readMap (ascending_map hascending unfiled) ?_
    refine List.forall₂_map_left_iff.mpr (List.forall₂_map_right_iff.mpr ?_)
    exact List.forall₂_same.mpr fun member _ => ⟨rfl, reads_readEntry member.2⟩
  have hread : Reads (readMap (readMap readEntry)) (cacheTokens c.categories)
      (c.categories.map fun (category, entries) =>
        (category, entries.map fun (key, e) => (key, unfiled e))) := by
    refine reads_readMap (ascending_map hc fun entries =>
      entries.map fun (key, e) => (key, unfiled e)) ?_
    refine List.forall₂_map_left_iff.mpr (List.forall₂_map_right_iff.mpr ?_)
    exact List.forall₂_same.mpr fun category hmem =>
      ⟨rfl, hcategory category.2 (hentries _ _ hmem)⟩
  have htokens := hread []
  rw [List.append_nil, ← (falls_toJson c).tokens_eq] at htokens
  unfold readCategories
  rw [htokens]
  rfl

end Descriptor

end ComponentAssembly

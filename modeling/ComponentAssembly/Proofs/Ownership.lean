import ComponentAssembly.Proofs.Permanence

/-!
# To which method a key belongs

A key that a module has bound belongs to a source, the text `module::method`.  A method of another
source cannot have it (`State.installed_owned`):

    m'.sourceOf method' ≠ m.sourceOf method   m' is refused, and all tables stay as they are
    m'.sourceOf method' = m.sourceOf method   m' is let in, and the key gets the factory of method'

Different names can have one text.  That is so exactly if the separators of both are in it, apart or
with a colon in common (`qualified_eq_iff`); then the key passes to another method, and nothing is said.
Names of methods without a colon keep all sources apart (`Overlap.has_colon`).
-/

namespace ComponentAssembly

open Assemble

/-! ## Names with a separator -/

/-- A pair of names has one text with another pair, whose separator comes earlier in it. -/
inductive Overlap : (module method module' method' : String) → Prop
  /-- Something may stand between the two separators. -/
  | apart (module between method : String) :
      Overlap (module ++ "::" ++ between) method module (between ++ "::" ++ method)
  /-- The separators have a colon in common. -/
  | joined (module method : String) : Overlap (module ++ ":") method module (":" ++ method)

theorem Overlap.qualified_eq {module method module' method' : String}
    (h : Overlap module method module' method') :
    module ++ "::" ++ method = module' ++ "::" ++ method' := by
  cases h with
  | apart between => simp only [String.append_assoc]
  | joined =>
    simp only [String.append_assoc]
    rfl

/-- If a method name has a separator after it put before it, it has a colon. -/
theorem Overlap.has_colon {module method module' method' : String}
    (h : Overlap module method module' method') : ':' ∈ method'.toList := by
  cases h <;> simp

/-- What is in front of a text that starts with a separator, if it starts with one itself. -/
theorem separator_append_eq {a b c : List Char} (h : ':' :: ':' :: a = b ++ ':' :: ':' :: c) :
    b = [] ∧ a = c ∨ b = [':'] ∧ a = ':' :: c ∨
      ∃ between, b = ':' :: ':' :: between ∧ a = between ++ ':' :: ':' :: c := by
  match b, h with
  | [], h => exact .inl ⟨rfl, by simpa using h⟩
  | [x], h =>
    obtain ⟨rfl, -, rfl⟩ : ':' = x ∧ True ∧ a = ':' :: c := by simpa using h
    exact .inr (.inl ⟨rfl, rfl⟩)
  | x :: y :: between, h =>
    obtain ⟨rfl, rfl, rfl⟩ : ':' = x ∧ ':' = y ∧ a = between ++ ':' :: ':' :: c := by simpa using h
    exact .inr (.inr ⟨between, rfl, rfl⟩)

/-- Pairs of names of one text, of which one has no less before its separator than the other. -/
theorem same_or_overlap {module method module' method' : String} {more : List Char}
    (hmodule : module.toList = module'.toList ++ more)
    (h : ':' :: ':' :: method'.toList = more ++ ':' :: ':' :: method.toList) :
    module = module' ∧ method = method' ∨ Overlap module method module' method' := by
  rcases separator_append_eq h with ⟨rfl, hmethod⟩ | ⟨rfl, hmethod⟩ | ⟨between, rfl, hmethod⟩
  · refine .inl ⟨String.toList_inj.mp ?_, String.toList_inj.mp hmethod.symm⟩
    rw [hmodule, List.append_nil]
  · obtain rfl : module = module' ++ ":" := String.toList_inj.mp (by rw [hmodule]; simp)
    obtain rfl : method' = ":" ++ method := String.toList_inj.mp (by rw [hmethod]; simp)
    exact .inr (.joined module' method)
  · obtain rfl : module = module' ++ "::" ++ String.ofList between :=
      String.toList_inj.mp (by rw [hmodule]; simp)
    obtain rfl : method' = String.ofList between ++ "::" ++ method :=
      String.toList_inj.mp (by rw [hmethod]; simp)
    exact .inr (.apart module' _ method)

/-- **Pairs of names of one text** are the same, or one overlaps with the other. -/
theorem qualified_eq_iff {module method module' method' : String} :
    module ++ "::" ++ method = module' ++ "::" ++ method' ↔
      (module = module' ∧ method = method') ∨ Overlap module method module' method' ∨
        Overlap module' method' module method := by
  constructor
  · intro h
    have hlists : module.toList ++ ':' :: ':' :: method.toList =
        module'.toList ++ ':' :: ':' :: method'.toList := by
      simpa using congrArg String.toList h
    rcases List.append_eq_append_iff.mp hlists with ⟨more, hmodule, hrest⟩ | ⟨more, hmodule, hrest⟩
    · rcases same_or_overlap hmodule hrest with ⟨rfl, rfl⟩ | hoverlap
      · exact .inl ⟨rfl, rfl⟩
      · exact .inr (.inr hoverlap)
    · exact (same_or_overlap hmodule hrest).imp_right .inl
  · rintro (⟨rfl, rfl⟩ | hoverlap | hoverlap)
    · rfl
    · exact hoverlap.qualified_eq
    · exact hoverlap.qualified_eq.symm

/-! ## Modules that want a key -/

namespace Module

/-- Methods of different names have the same source. -/
def Confuses (m : Module) (method : FactoryMethod) (m' : Module) (method' : FactoryMethod) : Prop :=
  Overlap m.name method.method m'.name method'.method ∨
    Overlap m'.name method'.method m.name method.method

variable {m m' : Module} {method method' : FactoryMethod} {s : State}

theorem sourceOf_eq_iff (hother : m.name ≠ m'.name ∨ method.method ≠ method'.method) :
    m.sourceOf method = m'.sourceOf method' ↔ m.Confuses method m' method' := by
  have hnot : ¬ (m.name = m'.name ∧ method.method = method'.method) := by
    rintro ⟨hname, hmethod⟩
    exact hother.elim (absurd hname) (absurd hmethod)
  exact qualified_eq_iff.trans (or_iff_right hnot)

theorem Confuses.has_colon (h : m.Confuses method m' method') :
    ':' ∈ method.method.toList ∨ ':' ∈ method'.method.toList :=
  h.elim (fun h => .inr h.has_colon) fun h => .inl h.has_colon

/-- A module whose methods share no key is refused only for a key that is bound already. -/
theorem RefusedBy.duplicate_binding {cause : AssemblyError} (h : m.RefusedBy s cause)
    (hdisjoint : m.Disjoint) : ∃ method ∈ m.methods, ∃ key ∈ method.keys, ∃ existing,
      s.source? key = some existing ∧ existing ≠ m.sourceOf method ∧
        cause = .duplicateBinding key existing (m.sourceOf method) := by
  cases h with
  | clash hij hfirst hsecond hkey hkey' =>
    exact absurd hkey' (hdisjoint.not_mem hij hfirst hsecond hkey)
  | taken _ hmethod hkey hsource hother => exact ⟨_, hmethod, _, hkey, _, hsource, hother, rfl⟩

end Module

namespace State

variable {s v : State} {m m' : Module} {method method' : FactoryMethod} {key : Key}

/-- A key that a module has bound stays bound from its source, whatever is asked for then. -/
theorem installed_source (hrun : installModule m s = (.ok (), v)) (hmethod : method ∈ m.methods)
    (hkey : key ∈ method.keys) (rs : List Request) :
    ∃ b, (v.after rs).tables.binding? key = some b ∧ b.origin = .explicit (m.sourceOf method) := by
  obtain ⟨u, -, ⟨-, -, t, hinstall, hinstalls⟩ | ⟨cause, -, hrefused⟩⟩ := s.installModule_spec m
  · cases hinstall.symm.trans hrun
    obtain ⟨kept, -, hbound⟩ := hinstalls.bound method hmethod
    obtain ⟨b, hb, hsource, -⟩ := after_explicit rs (hbound key hkey) rfl
    exact ⟨b, hb, hsource⟩
  · cases hrefused.symm.trans hrun

/-- A module is refused for a key that is bound from another source. -/
theorem installModule_refused (hkey : key ∈ method.keys) (hmethod : method ∈ m.methods)
    {source : String} (hsource : s.source? key = some source) (hother : source ≠ m.sourceOf method) :
    ∃ u cause, s.Notes m u ∧ m.RefusedBy s cause ∧
      installModule m s = (.error (.error cause), u) := by
  obtain ⟨u, hnotes, ⟨-, hfree, -⟩ | ⟨cause, hrefused, hrun⟩⟩ := s.installModule_spec m
  · exact absurd (hfree method hmethod key hkey source hsource) hother
  · exact ⟨u, cause, hnotes, hrefused, hrun⟩

/-- A module for which there is nothing in the way binds all keys of a method to a factory of its. -/
theorem installModule_binds (hkey : key ∈ method.keys) (hmethod : method ∈ m.methods)
    (hdisjoint : m.Disjoint) (hfree : m.FreeIn s) : ∃ u v kept, installModule m s = (.ok (), v) ∧
      (s.tables.scopeOf method.scope).Wraps u v method.key (.method method.key method.recipe) kept ∧
        v.tables.binding? key = some
          { key, factory := .guarded method.key kept, origin := .explicit (m.sourceOf method) } := by
  obtain ⟨u, ⟨log, rfl⟩, ⟨-, -, v, hrun, hinstalls⟩ | ⟨cause, hrefused, -⟩⟩ := s.installModule_spec m
  · obtain ⟨kept, hwraps, hbound⟩ := hinstalls.bound method hmethod
    exact ⟨_, v, kept, hrun, hwraps, hbound key hkey⟩
  · exact absurd ⟨hdisjoint, hfree⟩ hrefused.not_free

/-- **A key stays with the source that it was bound from.**  A key that a method of a module was bound
under is bound from there after any requests.  Where another method, of this or of another name, is
declared under the same key, its module is refused unless the names overlap, with the complaint that a
key is bound already, or that two of its own methods share one; no binding changes.  Names of methods
without a colon do not overlap.  If the names do overlap, the key is as good as the other method's own:
unless something else is in the way of its module, the key passes to it. -/
theorem installed_owned (hrun : installModule m s = (.ok (), v)) (hmethod : method ∈ m.methods)
    (hkey : key ∈ method.keys) (hmethod' : method' ∈ m'.methods) (hkey' : key ∈ method'.keys)
    (hother : m.name ≠ m'.name ∨ method.method ≠ method'.method) (rs : List Request) :
    ∃ b, (v.after rs).tables.binding? key = some b ∧ b.origin = .explicit (m.sourceOf method) ∧
      (¬ m.Confuses method m' method' → ∃ u cause, (v.after rs).Notes m' u ∧
        m'.RefusedBy (v.after rs) cause ∧
        installModule m' (v.after rs) = (.error (.error cause), u) ∧
        u.tables.binding? key = some b ∧
        (m'.Disjoint → ∃ other existing source, cause = .duplicateBinding other existing source)) ∧
      (':' ∉ method.method.toList → ':' ∉ method'.method.toList → ¬ m.Confuses method m' method') ∧
      (m.Confuses method m' method' → m'.Disjoint → m'.FreeIn (v.after rs) → ∃ u w kept,
        installModule m' (v.after rs) = (.ok (), w) ∧
        ((v.after rs).tables.scopeOf method'.scope).Wraps u w method'.key
          (.method method'.key method'.recipe) kept ∧
        w.tables.binding? key =
          some { key, factory := .guarded method'.key kept, origin := b.origin }) := by
  obtain ⟨b, hb, hsource⟩ := installed_source hrun hmethod hkey rs
  refine ⟨b, hb, hsource, fun hapart => ?_, fun hplain hplain' hconfuses => ?_,
    fun hconfuses hdisjoint hfree => ?_⟩
  · obtain ⟨u, cause, hnotes, hrefused, hrun'⟩ := installModule_refused hkey' hmethod'
      (source?_eq_some_iff.mpr ⟨b, hb, hsource⟩)
      (fun hsame => hapart ((Module.sourceOf_eq_iff hother).mp hsame))
    refine ⟨u, cause, hnotes, hrefused, hrun', ?_, fun hdisjoint => ?_⟩
    · obtain ⟨log, rfl⟩ := hnotes
      exact hb
    · obtain ⟨_, -, other, -, existing, -, -, hcause⟩ := hrefused.duplicate_binding hdisjoint
      exact ⟨other, existing, _, hcause⟩
  · exact hconfuses.has_colon.elim hplain hplain'
  · obtain ⟨u, w, kept, hrun', hwraps, hbound⟩ :=
      installModule_binds hkey' hmethod' hdisjoint hfree
    refine ⟨u, w, kept, hrun', hwraps, ?_⟩
    rw [hbound, hsource, (Module.sourceOf_eq_iff hother).mpr hconfuses]

end State

/-! ## Clocks in towers -/

def Key.towerClock : Key :=
  .of ⟨"Clock"⟩

def FactoryMethod.inTower (method : String) : FactoryMethod where
  method
  key := .towerClock
  recipe := { type := ⟨"Clock"⟩, label := some method, body := .literal (.component ⟨"Clock"⟩) }

def Module.tower (name method : String) : Module where
  name
  methods := [.inTower method]

def State.underTower (name method : String) : State :=
  (installModule (.tower name method) (.initial [] {} [])).2

theorem FactoryMethod.inTower_keys (method : String) :
    Key.towerClock ∈ (FactoryMethod.inTower method).keys :=
  List.mem_singleton_self _

theorem Module.tower_methods (name method : String) :
    FactoryMethod.inTower method ∈ (Module.tower name method).methods :=
  List.mem_singleton_self _

theorem Module.tower_disjoint (name method : String) : (Module.tower name method).Disjoint :=
  List.pairwise_singleton _ _

/-- The clock of the north tower is kept from the south tower, but not from the one whose name is the
beginning of its own. -/
theorem installed_owned_towers :
    let m := Module.tower "Castle::north" "clock"
    let v := State.underTower "Castle::north" "clock"
    ∃ b, v.tables.binding? .towerClock = some b ∧ b.origin = .explicit (m.sourceOf (.inTower "clock")) ∧
      (∃ u cause, installModule (.tower "Castle::south" "clock") v = (.error (.error cause), u) ∧
        u.tables.binding? .towerClock = some b) ∧
      ∃ w b', installModule (.tower "Castle" "north::clock") v = (.ok (), w) ∧
        w.tables.binding? .towerClock = some b' ∧ b'.origin = b.origin := by
  intro m v
  have hrun : installModule m (.initial [] {} []) = (.ok (), v) := rfl
  have hmethod := Module.tower_methods "Castle::north" "clock"
  have hkey := FactoryMethod.inTower_keys "clock"
  obtain ⟨b, hb, hsource, hkept, hplain, -⟩ := State.installed_owned hrun hmethod hkey
    (Module.tower_methods "Castle::south" "clock") hkey (.inl (by decide)) []
  obtain ⟨b', hb', -, -, -, hpasses⟩ := State.installed_owned hrun hmethod hkey
    (Module.tower_methods "Castle" "north::clock") (FactoryMethod.inTower_keys _)
    (.inl (by decide)) []
  cases hb.symm.trans hb'
  obtain ⟨u, cause, -, -, hrefused, hsame, -⟩ := hkept (hplain (by decide) (by decide))
  have hfree : (Module.tower "Castle" "north::clock").FreeIn v := by
    intro method hmethod key hkey existing hexisting
    cases List.mem_singleton.mp hmethod
    cases List.mem_singleton.mp hkey
    obtain ⟨_, hbound, hexisting⟩ := State.source?_eq_some_iff.mp hexisting
    cases hb.symm.trans hbound
    cases hsource.symm.trans hexisting
    rfl
  obtain ⟨-, w, kept, hruns, -, hbound⟩ :=
    hpasses (.inl (.apart "Castle" "north" "clock")) (Module.tower_disjoint _ _) hfree
  exact ⟨b, hb, hsource, ⟨u, cause, hrefused, hsame⟩, w, _, hruns, hbound, rfl⟩

/-- Not every module is refused that declares a key which a method of another name is bound under. -/
theorem not_installed_owned :
    ¬ ∀ (m m' : Module) (method method' : FactoryMethod) (key : Key) (v : State),
      installModule m (.initial [] {} []) = (.ok (), v) → method ∈ m.methods → key ∈ method.keys →
        method' ∈ m'.methods → key ∈ method'.keys →
          (m.name ≠ m'.name ∨ method.method ≠ method'.method) →
            ∃ existing source u,
              installModule m' v = (.error (.error (.duplicateBinding key existing source)), u) := by
  intro h
  obtain ⟨existing, source, u, hrefused⟩ := h (.tower "Castle::north" "clock")
    (.tower "Castle" "north::clock") _ _ .towerClock (.underTower "Castle::north" "clock") rfl
    (Module.tower_methods _ _) (FactoryMethod.inTower_keys _) (Module.tower_methods _ _)
    (FactoryMethod.inTower_keys _) (.inl (by decide))
  have hlets : (installModule (.tower "Castle" "north::clock")
      (.underTower "Castle::north" "clock")).1.toBool = true := by decide +kernel
  rw [hrefused] at hlets
  cases hlets

end ComponentAssembly

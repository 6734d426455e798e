import ComponentAssembly.Factory

/-!
# Layers of factories

A scope puts at most one layer around a factory (`Factory.Kept`), and guards go around that.  So a
cell is filled only under the guard of the key that owns it (`Factory.Tidy`).
-/

namespace ComponentAssembly

namespace Factory

/-- Whether a factory is without layers that guard a key or keep instances. -/
def isCore : Factory → Bool
  | guarded .. => false
  | once .. => false
  | memo .. => false
  | constant _ => true
  | recipe .. => true
  | method .. => true
  | construct .. => true

def isGuarded : Factory → Bool
  | guarded .. => true
  | _ => false

/-- A cell is filled from a factory without layers, under the guard of the key that owns the cell. -/
def Tidy (owner? : Nat → Option Key) (guard : Option Key) : Factory → Prop
  | guarded key inner => inner.Tidy owner? (some key)
  | once cell inner => (∃ key ∈ guard, owner? cell = some key) ∧ inner.isCore
  | memo _ _ inner => inner.Tidy owner? guard
  | constant _ => True
  | recipe .. => True
  | method .. => True
  | construct .. => True

theorem Tidy.of_isCore {owner? : Nat → Option Key} {guard : Option Key} {f : Factory}
    (h : f.isCore) : f.Tidy owner? guard := by
  cases f with
  | guarded _ _ => cases h
  | once _ _ => cases h
  | memo _ _ _ => cases h
  | constant _ => trivial
  | recipe _ _ => trivial
  | method _ _ => trivial
  | construct _ _ => trivial

/-- What is in order without a guard is so under any. -/
theorem Tidy.under {owner? : Nat → Option Key} {f : Factory} (h : f.Tidy owner? none)
    (guard : Option Key) : f.Tidy owner? guard := by
  induction f with
  | guarded key inner _ => exact h
  | once cell inner _ =>
    obtain ⟨⟨key, hkey, -⟩, -⟩ := h
    cases hkey
  | memo _ _ inner ih => exact ih h
  | constant _ => trivial
  | recipe _ _ => trivial
  | method _ _ => trivial
  | construct _ _ => trivial

theorem Tidy.mono {owner? owner?' : Nat → Option Key}
    (howner : ∀ cell key, owner? cell = some key → owner?' cell = some key) {guard : Option Key}
    {f : Factory} (h : f.Tidy owner? guard) : f.Tidy owner?' guard := by
  induction f generalizing guard with
  | guarded key inner ih => exact ih h
  | once cell inner _ =>
    obtain ⟨⟨key, hkey, howned⟩, hcore⟩ := h
    exact ⟨⟨key, hkey, howner cell key howned⟩, hcore⟩
  | memo _ _ inner ih => exact ih h
  | constant _ => trivial
  | recipe _ _ => trivial
  | method _ _ => trivial
  | construct _ _ => trivial

/-- What a scope makes of a factory. -/
inductive Kept (inner : Factory) : Factory → Prop
  | bare : Kept inner inner
  | once (cell : Nat) : Kept inner (.once cell inner)
  | memo (store : Nat) (key : Key) : Kept inner (.memo store key inner)

theorem Kept.keys_eq {inner kept : Factory} (h : Kept inner kept) : kept.keys = inner.keys := by
  cases h <;> rfl

/-- A factory that guards a key and builds the instances of it by a construction. -/
def Builds (f : Factory) (key : Key) (c : Construction) : Prop :=
  ∃ kept, f = .guarded key kept ∧ Kept (.construct key c) kept

def construction? : Factory → Option Construction
  | guarded _ inner => inner.construction?
  | once _ inner => inner.construction?
  | memo _ _ inner => inner.construction?
  | constant _ => none
  | recipe .. => none
  | method .. => none
  | construct _ c => some c

theorem Builds.construction?_eq {f : Factory} {key : Key} {c : Construction} (h : f.Builds key c) :
    f.construction? = some c := by
  obtain ⟨kept, rfl, hkept⟩ := h
  cases hkept <;> rfl

end Factory

end ComponentAssembly

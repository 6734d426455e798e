import Mathlib.Data.List.Perm.Basic

/-!
# Dealing

Those who take from a list one after the other deal it out: each item, in its turn, goes to one of
the hands or is left (`Dealt`).  What is left can be dealt on:

    Dealt items hands left → Dealt left more rest → Dealt items (hands ++ more) rest   (Dealt.append)

So no item goes to two hands and none is lost (`Dealt.perm`), and what is left is in its old order
(`Dealt.sublist`).
-/

namespace ComponentAssembly

variable {α : Type}

/-- The items of a list are dealt: each, in order, goes to one of some hands or is left. -/
inductive Dealt : List α → List (List α) → List α → Prop
  | nil {hands : List (List α)} (h : ∀ hand ∈ hands, hand = []) : Dealt [] hands []
  | keep {a : α} {items left : List α} {hands : List (List α)} (h : Dealt items hands left) :
      Dealt (a :: items) hands (a :: left)
  | deal {a : α} {items left hand : List α} {before after : List (List α)}
      (h : Dealt items (before ++ hand :: after) left) :
      Dealt (a :: items) (before ++ (a :: hand) :: after) left

namespace Dealt

variable {items left rest : List α} {hands more : List (List α)}

/-! ## Taking once -/

theorem nothing (items : List α) (h : ∀ hand ∈ hands, hand = []) : Dealt items hands items := by
  induction items with
  | nil => exact .nil h
  | cons a rest ih => exact .keep ih

/-- One taker takes one more item. -/
theorem take {a : α} {hand : List α} (h : Dealt items [hand] left) :
    Dealt (a :: items) [a :: hand] left :=
  @Dealt.deal α a items left hand [] [] h

/-- An item is taken from among others. -/
theorem middle (before : List α) (a : α) (after : List α) :
    Dealt (before ++ a :: after) [[a]] (before ++ after) := by
  induction before with
  | nil => exact take (.nothing after (by simp))
  | cons b rest ih => exact .keep ih

/-- The first item of a kind is taken. -/
theorem first {q : α → Bool} {a : α} (h : items.find? q = some a) :
    Dealt items [[a]] (items.eraseP q) := by
  obtain ⟨hq, before, after, rfl, hbefore⟩ := List.find?_eq_some_iff_append.mp h
  rw [List.eraseP_append_right _ (by simpa using hbefore), List.eraseP_cons_of_pos hq]
  exact .middle before a after

/-- The items of a kind are taken, up to some place in a list. -/
theorem filter_append (q : α → Bool) (items rest : List α) :
    Dealt (items ++ rest) [items.filter q] ((items.filter fun a => !q a) ++ rest) := by
  induction items with
  | nil => exact .nothing rest (by simp)
  | cons a more ih =>
    cases hq : q a with
    | true =>
      rw [List.filter_cons_of_pos hq, List.filter_cons_of_neg (by simp [hq])]
      exact ih.take
    | false =>
      rw [List.filter_cons_of_neg (by simp [hq]), List.filter_cons_of_pos (by simp [hq])]
      exact .keep ih

/-! ## Taking on -/

/-- What is left is dealt on. -/
theorem append (h : Dealt items hands left) (h' : Dealt left more rest) :
    Dealt items (hands ++ more) rest := by
  induction h generalizing more rest with
  | nil hempty =>
    cases h' with
    | nil hempty' =>
      refine .nil fun hand hhand => ?_
      rcases List.mem_append.mp hhand with hhand | hhand
      · exact hempty hand hhand
      · exact hempty' hand hhand
  | keep _ ih =>
    cases h' with
    | keep h' => exact .keep (ih h')
    | deal h' =>
      have hrest := ih h'
      rw [← List.append_assoc] at hrest ⊢
      exact .deal hrest
  | deal _ ih =>
    have hrest := ih h'
    rw [List.append_assoc, List.cons_append] at hrest ⊢
    exact .deal hrest

/-! ## What comes of it -/

/-- Every item is in one hand or left, and nothing else is. -/
theorem perm (h : Dealt items hands left) : (hands.flatten ++ left).Perm items := by
  induction h with
  | @nil hands hempty =>
    have hflatten : hands.flatten = [] := List.flatten_eq_nil_iff.mpr hempty
    rw [hflatten]
    exact .refl _
  | keep _ ih => exact List.perm_middle.trans (ih.cons _)
  | deal _ ih =>
    refine .trans ?_ (ih.cons _)
    simp only [List.flatten_append, List.flatten_cons, List.append_assoc, List.cons_append]
    exact List.perm_middle

/-- What is left keeps its order. -/
theorem sublist (h : Dealt items hands left) : left.Sublist items := by
  induction h with
  | nil _ => exact .slnil
  | keep _ ih => exact ih.cons_cons _
  | deal _ ih => exact ih.cons _

theorem mem_items (h : Dealt items hands left) {hand : List α} (hhand : hand ∈ hands) {a : α}
    (ha : a ∈ hand) : a ∈ items :=
  h.perm.subset (List.mem_append_left _ (List.mem_flatten.mpr ⟨hand, hhand, ha⟩))

/-- Of items that are in no hand all are left. -/
theorem filter_left {q : α → Bool} (h : Dealt items hands left)
    (hq : ∀ hand ∈ hands, ∀ a ∈ hand, q a = false) : left.filter q = items.filter q := by
  induction h with
  | nil _ => rfl
  | @keep a _ _ _ _ ih =>
    have hrest := ih hq
    simp only [List.filter_cons, hrest]
  | @deal a items left hand before after _ ih =>
    have ha : q a = false := hq (a :: hand) (by simp) a List.mem_cons_self
    rw [List.filter_cons_of_neg (by simp [ha])]
    refine ih fun hand' hhand' b hb => ?_
    rcases List.mem_append.mp hhand' with hbefore | hafter
    · exact hq hand' (List.mem_append_left _ hbefore) b hb
    · rcases List.mem_cons.mp hafter with rfl | hafter
      · exact hq (a :: hand') (by simp) b (List.mem_cons_of_mem _ hb)
      · exact hq hand' (List.mem_append_right _ (List.mem_cons_of_mem _ hafter)) b hb

end Dealt

/-! ## Places -/

/-- Where the items of a list are after a deal: an item that is left has a new place, any other is in a
hand. -/
structure Places (items : List α) (hands : List (List α)) (left : List α) (place : Nat → Option Nat) :
    Prop where
  kept {i j : Nat} {a : α} (ha : items[i]? = some a) (hj : place i = some j) : left[j]? = some a
  dealt {i : Nat} {a : α} (ha : items[i]? = some a) (hnone : place i = none) :
    ∃ hand ∈ hands, a ∈ hand
  order {i j i' j' : Nat} (hij : i < j) (hi : place i = some i') (hj : place j = some j') : i' < j'
  onto {j : Nat} {a : α} (ha : left[j]? = some a) : ∃ i, place i = some j ∧ items[i]? = some a

/-- Each item has its place. -/
theorem Dealt.places {items left : List α} {hands : List (List α)} (h : Dealt items hands left) :
    ∃ place, Places items hands left place := by
  induction h with
  | nil _ => exact ⟨fun _ => none, by simp, by simp, by simp, by simp⟩
  | @keep a items left hands _ ih =>
    obtain ⟨place, hplace⟩ := ih
    refine ⟨fun | 0 => some 0 | i + 1 => (place i).map (· + 1), ?_, ?_, ?_, ?_⟩
    · rintro (_ | i) j b hb hj
      · cases hj
        exact hb
      · obtain ⟨k, hk, rfl⟩ := Option.map_eq_some_iff.mp hj
        exact hplace.kept hb hk
    · rintro (_ | i) b hb hnone
      · cases hnone
      · exact hplace.dealt hb (Option.map_eq_none_iff.mp hnone)
    · rintro (_ | i) (_ | j) i' j' hij hi hj
      · omega
      · obtain ⟨k, -, rfl⟩ := Option.map_eq_some_iff.mp hj
        cases hi
        exact Nat.succ_pos k
      · omega
      · obtain ⟨k, hk, rfl⟩ := Option.map_eq_some_iff.mp hi
        obtain ⟨l, hl, rfl⟩ := Option.map_eq_some_iff.mp hj
        exact Nat.succ_lt_succ (hplace.order (Nat.lt_of_succ_lt_succ hij) hk hl)
    · rintro (_ | j) b hb
      · exact ⟨0, rfl, hb⟩
      · obtain ⟨i, hi, hb⟩ := hplace.onto (show left[j]? = some b from hb)
        exact ⟨i + 1, congrArg (Option.map (· + 1)) hi, hb⟩
  | @deal a items left hand before after _ ih =>
    obtain ⟨place, hplace⟩ := ih
    refine ⟨fun | 0 => none | i + 1 => place i, ?_, ?_, ?_, ?_⟩
    · rintro (_ | i) j b hb hj
      · cases hj
      · exact hplace.kept hb hj
    · rintro (_ | i) b hb hnone
      · cases hb
        exact ⟨a :: hand, by simp, List.mem_cons_self⟩
      · obtain ⟨other, hother, hb⟩ := hplace.dealt (show items[i]? = some b from hb) hnone
        simp only [List.mem_append, List.mem_cons] at hother ⊢
        rcases hother with hother | rfl | hother
        · exact ⟨other, .inl hother, hb⟩
        · exact ⟨a :: other, .inr (.inl rfl), List.mem_cons_of_mem _ hb⟩
        · exact ⟨other, .inr (.inr hother), hb⟩
    · rintro (_ | i) (_ | j) i' j' hij hi hj
      · omega
      · cases hi
      · omega
      · exact hplace.order (Nat.lt_of_succ_lt_succ hij) hi hj
    · intro j b hb
      obtain ⟨i, hi, hb⟩ := hplace.onto hb
      exact ⟨i + 1, hi, hb⟩

end ComponentAssembly

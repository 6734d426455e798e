import ComponentAssembly.Text.Case

/-!
# Lower forms are lower already

Lowering a text twice is lowering it once:

    lower (lower text) = lower text                                        (lower_lower)

A letter that the table of shifts moves, it moves to one that no shift moves any further
(`lowerShifts_settle`); and no letter has the capital sigma as its lower form, the only one for which
it matters what stands around it.
-/

namespace ComponentAssembly.Text

/-! ## The table -/

/-- None of the code points from `lo` to `hi`, every `step`-th of them, is one that a shift moves. -/
def Shift.misses (step lo hi : Nat) (s : Shift) : Bool :=
  s.last.blt lo || hi.blt s.first ||
    (s.step.beq 2 && (step.beq 2 || lo.beq hi) && !(lo % 2).beq (s.first % 2))

/-- Where a shift goes to, no shift goes any further.  It goes to letters beyond ASCII other than
those that have rules of their own, or to one small letter of ASCII. -/
def Shift.settles (s : Shift) : Bool :=
  let lo := ((s.first : Int) + s.offset).toNat
  let hi := ((s.last : Int) + s.offset).toNat
  decide (0 ≤ (s.first : Int) + s.offset) &&
    (hi.blt 0xd800 || Nat.blt 0xdfff lo && hi.blt 0x110000) &&
    (Nat.blt 127 lo || lo.beq hi && Nat.blt 96 lo && lo.blt 123) &&
    [0x130, 0x3a3].all (fun special => hi.blt special || special.blt lo) &&
    lowerShifts.all (Shift.misses s.step lo hi)

set_option maxRecDepth 10000 in
theorem lowerShifts_settle : lowerShifts.all Shift.settles = true := by
  decide +kernel

theorem Shift.covers_iff (s : Shift) (n : Nat) :
    s.covers n = true ↔ s.first ≤ n ∧ n ≤ s.last ∧ (n - s.first) % s.step = 0 := by
  simp [Shift.covers, and_assoc]

theorem Shift.not_covers_of_misses {s : Shift} {step lo hi n : Nat} (h : s.misses step lo hi = true)
    (hlo : lo ≤ n) (hhi : n ≤ hi) (hstep : (n - lo) % step = 0) : s.covers n = false := by
  rw [Bool.eq_false_iff, ne_eq, Shift.covers_iff]
  rintro ⟨hfirst, hlast, hmod⟩
  simp only [Shift.misses, Bool.or_eq_true, Bool.and_eq_true, Bool.not_eq_true', Nat.blt_eq,
    Bool.eq_false_iff, ne_eq, Nat.beq_eq] at h
  rcases h with (h | h) | ⟨⟨htwo, hparity⟩, hne⟩
  · omega
  · omega
  · rw [htwo] at hmod
    rcases hparity with hstep2 | hsame
    · rw [hstep2] at hstep
      omega
    · omega

/-- What is known of the code point that a shift of the table moves another one to. -/
structure Settled (n : Nat) : Prop where
  valid : n.isValidChar
  small : n < 128 → 97 ≤ n ∧ n ≤ 122
  special : n ≠ 0x130 ∧ n ≠ 0x3a3
  still : ∀ s ∈ lowerShifts, s.covers n = false

theorem Shift.settled {s : Shift} (hs : s ∈ lowerShifts) {n : Nat} (hn : s.covers n = true) :
    Settled ((n : Int) + s.offset).toNat := by
  have hsettles := List.all_eq_true.mp lowerShifts_settle s hs
  obtain ⟨hfirst, hlast, hmod⟩ := (s.covers_iff n).mp hn
  simp only [Shift.settles, Bool.and_eq_true, Bool.or_eq_true, decide_eq_true_eq, Nat.blt_eq,
    Nat.beq_eq, List.all_cons, List.all_nil, and_true, List.all_eq_true] at hsettles
  obtain ⟨⟨⟨⟨hpos, hvalid⟩, hsmall⟩, hdotted, hsigma⟩, hmisses⟩ := hsettles
  refine ⟨?_, fun hlt => ?_, ⟨?_, ?_⟩, fun t ht => ?_⟩
  · unfold Nat.isValidChar
    omega
  · omega
  · omega
  · omega
  · refine Shift.not_covers_of_misses (hmisses t ht) (by omega) (by omega) ?_
    have : (↑n + s.offset).toNat - (↑s.first + s.offset).toNat = n - s.first := by omega
    rw [this]
    exact hmod

/-! ## Letters -/

/-- A letter that stays as it is when a text is lowered. -/
def IsLower (c : Char) : Prop :=
  c ≠ '\u03a3' ∧ lowerChar c = [c]

theorem lowerChar_ascii {c : Char} (h : c.toNat < 128) : lowerChar c = [c.toLower] :=
  if_pos h

theorem isLower_toLower {c : Char} (h : c.toNat < 128) : IsLower c.toLower := by
  have hall : ∀ n < 128, (Char.ofNat n).toLower ≠ '\u03a3' ∧
      (Char.ofNat n).toLower.toNat < 128 ∧
        (Char.ofNat n).toLower.toLower = (Char.ofNat n).toLower := by decide +kernel
  obtain ⟨hsigma, hascii, hsame⟩ := hall c.toNat h
  rw [Char.ofNat_toNat] at hsigma hascii hsame
  exact ⟨hsigma, by rw [lowerChar_ascii hascii, hsame]⟩

theorem isLower_sigma : IsLower '\u03c2' ∧ IsLower '\u03c3' := by
  unfold IsLower
  decide +kernel

theorem isLower_dotted : IsLower 'i' ∧ IsLower '\u0307' := by
  unfold IsLower
  decide +kernel

theorem Shift.apply_eq (c : Char) :
    ((∀ s ∈ lowerShifts, s.covers c.toNat = false) ∧ Shift.apply lowerShifts c = c) ∨
      ∃ s ∈ lowerShifts, s.covers c.toNat = true ∧
        Shift.apply lowerShifts c = Char.ofNat ((c.toNat : Int) + s.offset).toNat := by
  unfold Shift.apply
  cases hfind : lowerShifts.find? (·.covers c.toNat) with
  | none => exact .inl ⟨by simpa using hfind, rfl⟩
  | some s =>
    exact .inr ⟨s, List.mem_of_find?_eq_some hfind, by simpa using List.find?_some hfind, rfl⟩

theorem isLower_ofNat {n : Nat} (h : Settled n) : IsLower (Char.ofNat n) := by
  have htoNat : (Char.ofNat n).toNat = n := by
    rw [Char.ofNat, dif_pos h.valid]
    rfl
  have hne : ∀ d : Char, n ≠ d.toNat → Char.ofNat n ≠ d := by
    rintro d hn rfl
    exact hn htoNat.symm
  refine ⟨hne '\u03a3' h.special.2, ?_⟩
  by_cases hascii : n < 128
  · obtain ⟨hlo, hhi⟩ := h.small hascii
    have hall : ∀ n < 123, 97 ≤ n → (Char.ofNat n).toLower = Char.ofNat n := by decide +kernel
    rw [lowerChar_ascii (by omega), hall n (by omega) hlo]
  · unfold lowerChar
    rw [if_neg (by omega), if_neg (by simpa using hne '\u0130' h.special.1)]
    rcases Shift.apply_eq (Char.ofNat n) with ⟨-, heq⟩ | ⟨s, hs, hcovers, -⟩
    · rw [heq]
    · rw [htoNat, h.still s hs] at hcovers
      cases hcovers

theorem isLower_of_mem_lowerChar {c d : Char} (hsigma : c ≠ '\u03a3') (h : d ∈ lowerChar c) :
    IsLower d := by
  by_cases hascii : c.toNat < 128
  · rw [lowerChar_ascii hascii] at h
    rw [List.mem_singleton.mp h]
    exact isLower_toLower hascii
  · by_cases hdotted : c = '\u0130'
    · rw [hdotted] at h
      have hform : lowerChar '\u0130' = ['i', '\u0307'] := rfl
      rw [hform] at h
      simp only [List.mem_cons, List.not_mem_nil, or_false] at h
      rcases h with rfl | rfl
      · exact isLower_dotted.1
      · exact isLower_dotted.2
    · have hform : lowerChar c = [Shift.apply lowerShifts c] := by
        unfold lowerChar
        rw [if_neg hascii, if_neg (by simpa using hdotted)]
      rw [hform] at h
      rw [List.mem_singleton.mp h]
      rcases Shift.apply_eq c with ⟨-, heq⟩ | ⟨s, hs, hcovers, heq⟩
      · rw [heq]
        exact ⟨hsigma, by rw [hform, heq]⟩
      · rw [heq]
        exact isLower_ofNat (Shift.settled hs hcovers)

/-! ## Texts -/

theorem isLower_of_mem_lowerFrom {d : Char} (before cs : List Char) (h : d ∈ lowerFrom before cs) :
    IsLower d := by
  induction cs generalizing before with
  | nil => cases h
  | cons c rest ih =>
    rw [lowerFrom] at h
    rcases List.mem_append.mp h with h | h
    · by_cases hsigma : c = '\u03a3'
      · rw [if_pos (by simpa using hsigma)] at h
        split at h
        · rw [List.mem_singleton.mp h]
          exact isLower_sigma.1
        · rw [List.mem_singleton.mp h]
          exact isLower_sigma.2
      · rw [if_neg (by simpa using hsigma)] at h
        exact isLower_of_mem_lowerChar hsigma h
    · exact ih _ h

theorem lowerFrom_of_isLower {cs : List Char} (h : ∀ c ∈ cs, IsLower c) (before : List Char) :
    lowerFrom before cs = cs := by
  induction cs generalizing before with
  | nil => rfl
  | cons c rest ih =>
    obtain ⟨hsigma, hform⟩ := h c List.mem_cons_self
    rw [lowerFrom, if_neg (by simpa using hsigma), hform,
      ih fun d hd => h d (List.mem_cons_of_mem _ hd)]
    rfl

/-- **Lower forms.**  Lowering a lowered text changes nothing. -/
@[simp]
theorem lower_lower (text : String) : lower (lower text) = lower text := by
  unfold lower
  rw [String.toList_ofList, lowerFrom_of_isLower fun c hc => isLower_of_mem_lowerFrom _ _ hc]

end ComponentAssembly.Text

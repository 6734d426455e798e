import ComponentAssembly.Json.Token
import Mathlib.Data.List.Forall2
import Mathlib.Data.String.Basic

/-!
# Written JSON falls into its tokens

A piece of a text falls into tokens if reading takes these tokens off it, whatever follows
(`Falls`).  Pieces that stand one after the other fall into the tokens of each (`Falls.append`), so
that whatever is put together from strings, truth values, punctuation and blanks falls into the
tokens that it was meant to have:

    Falls text.toList ts → tokens text = ts                                      (Falls.tokens_eq)

Every text survives being quoted (`falls_quote`).
-/

namespace ComponentAssembly.Json

/-- Reading takes these tokens off a piece of text, whatever follows it. -/
structure Falls (cs : List Char) (ts : List Token) : Prop where
  taken : ∀ fuel rest, tokensWithin (fuel + ts.length) (cs ++ rest) = ts ++ tokensWithin fuel rest
  length_le : ts.length ≤ cs.length

variable {cs ds : List Char} {ts us : List Token}

theorem Falls.nil : Falls [] [] where
  taken _ _ := rfl
  length_le := Nat.le_refl _

theorem Falls.append (h : Falls cs ts) (h' : Falls ds us) : Falls (cs ++ ds) (ts ++ us) where
  taken fuel rest := by
    have hlength : fuel + (ts ++ us).length = fuel + us.length + ts.length := by
      rw [List.length_append]
      omega
    rw [hlength, List.append_assoc, h.taken, h'.taken, List.append_assoc]
  length_le := by
    have := h.length_le
    have := h'.length_le
    simp only [List.length_append]
    omega

theorem Falls.tokens_eq {text : String} (h : Falls text.toList ts) : tokens text = ts := by
  have hlength := h.length_le
  obtain ⟨fuel, hfuel⟩ : ∃ fuel, text.toList.length + 1 = fuel + 1 + ts.length :=
    ⟨text.toList.length - ts.length, by omega⟩
  have htaken := h.taken (fuel + 1) []
  rw [List.append_nil] at htaken
  have hempty : tokensWithin (fuel + 1) [] = [] := rfl
  calc tokens text = tokensWithin (text.toList.length + 1) text.toList := rfl
    _ = ts ++ tokensWithin (fuel + 1) [] := by rw [hfuel, htaken]
    _ = ts := by rw [hempty, List.append_nil]

/-! ## Single tokens and blanks -/

theorem Falls.blank {c : Char} (h : isBlank c = true) : Falls [c] [] where
  taken fuel rest := by
    cases fuel with
    | zero => rfl
    | succ fuel => simp [tokensWithin, List.dropWhile_cons_of_pos h]
  length_le := Nat.zero_le _

theorem Falls.blanks (h : ∀ c ∈ cs, isBlank c = true) : Falls cs [] := by
  induction cs with
  | nil => exact .nil
  | cons c cs ih =>
    exact (Falls.blank (h c List.mem_cons_self)).append
      (ih fun d hd => h d (List.mem_cons_of_mem _ hd))

theorem Falls.token {c : Char} {t : Token} (hc : isBlank c = false)
    (h : ∀ rest, readToken (c :: cs ++ rest) = some (t, rest)) : Falls (c :: cs) [t] where
  taken fuel rest := by
    have hdrop : (c :: (cs ++ rest)).dropWhile isBlank = c :: (cs ++ rest) :=
      List.dropWhile_cons_of_neg (by simp [hc])
    have hread : readToken (c :: (cs ++ rest)) = some (t, rest) := h rest
    simp only [List.length_singleton, List.cons_append, tokensWithin, hdrop, hread]
    rfl
  length_le := by simp

theorem falls_openBrace : Falls ['\x7b'] [.openBrace] :=
  .token rfl fun _ => rfl

theorem falls_closeBrace : Falls ['\x7d'] [.closeBrace] :=
  .token rfl fun _ => rfl

theorem falls_colon : Falls [':', ' '] [.colon] := by
  have hcolon : Falls [':'] [.colon] := .token rfl fun _ => rfl
  exact hcolon.append (.blank (c := ' ') rfl)

theorem falls_comma : Falls [',', '\n'] [.comma] := by
  have hcomma : Falls [','] [.comma] := .token rfl fun _ => rfl
  exact hcomma.append (.blank (c := '\n') rfl)

theorem falls_true : Falls ['t', 'r', 'u', 'e'] [.bool true] :=
  .token rfl fun _ => rfl

theorem falls_false : Falls ['f', 'a', 'l', 's', 'e'] [.bool false] :=
  .token rfl fun _ => rfl

/-! ## Strings -/

/-- The unit that a character of a string is written as. -/
def unitOf (c : Char) : StringUnit :=
  if c.toNat < 32 ∧ c ∉ ['\x08', '\x0c', '\n', '\r', '\t'] then .code c.toNat else .plain c

theorem hexValue_hexDigit : ∀ n < 16, Text.hexValue (hexDigit n) = some n := by
  decide

theorem textOf_code {n : Nat} (h : n < 0xd800) (units : List StringUnit) :
    textOf (.code n :: units) = (textOf units).map (Char.ofNat n :: ·) := by
  have hhigh : ¬ 0xd800 ≤ n := by omega
  have hlow : ¬ 0xdc00 ≤ n := by omega
  cases units with
  | nil => simp [textOf, hhigh]
  | cons unit units =>
    cases unit with
    | plain c => simp [textOf, hhigh]
    | code m => simp [textOf, hhigh, hlow]

theorem textOf_units (cs : List Char) : textOf (cs.map unitOf) = some cs := by
  induction cs with
  | nil => rfl
  | cons c cs ih =>
    rw [List.map_cons, unitOf]
    split
    · next hcode => rw [textOf_code (by omega), ih, Option.map_some, Char.ofNat_toNat]
    · rw [textOf, ih, Option.map_some]

/-- A character survives being escaped. -/
theorem readUnits_escapeChar (c : Char) (fuel : Nat) (rest : List Char) :
    readUnits (fuel + 1) (escapeChar c ++ rest) =
      (readUnits fuel rest).map fun (units, rest) => (unitOf c :: units, rest) := by
  unfold escapeChar
  split
  case h_1 | h_2 | h_3 | h_4 | h_5 | h_6 | h_7 =>
    cases hunits : readUnits fuel rest <;> simp [readUnits, escaped, unitOf, hunits]
  case h_8 hquote hbackslash h8 h12 h10 h13 h9 =>
    by_cases hcontrol : c.toNat < 32
    · have hunit : unitOf c = .code c.toNat := by
        have hspecial : c ∉ ['\x08', '\x0c', '\n', '\r', '\t'] := by
          simpa using ⟨h8, h12, h10, h13, h9⟩
        simp only [unitOf, hcontrol, hspecial, not_false_eq_true, and_self, if_true]
      have hhigh := hexValue_hexDigit (c.toNat / 16) (by omega)
      have hlow := hexValue_hexDigit (c.toNat % 16) (by omega)
      have hzero : Text.hexValue '0' = some 0 := rfl
      have hvalue : c.toNat / 16 * 16 + c.toNat % 16 = c.toNat := by omega
      cases hunits : readUnits fuel rest <;>
        simp [readUnits, readHex4, hcontrol, hunit, hhigh, hlow, hzero, hvalue, hunits]
    · have hunit : unitOf c = .plain c := by
        simp [unitOf, hcontrol]
      have hplain : c ≠ '\\' := hbackslash
      rw [if_neg hcontrol, List.singleton_append, readUnits]
      · cases readUnits fuel rest <;> simp [hcontrol, hunit, hplain]
      · exact hquote
      · intro _ h
        exact absurd h hbackslash
      · intro _ _ h
        exact absurd h hbackslash

theorem readUnits_flatMap (cs : List Char) (fuel : Nat) (rest : List Char) :
    readUnits (fuel + cs.length + 1) (cs.flatMap escapeChar ++ '"' :: rest) =
      some (cs.map unitOf, rest) := by
  induction cs with
  | nil => rfl
  | cons c cs ih =>
    rw [List.flatMap_cons, List.append_assoc, List.length_cons, ← Nat.add_assoc,
      readUnits_escapeChar, ih]
    rfl

theorem length_le_flatMap (cs : List Char) : cs.length ≤ (cs.flatMap escapeChar).length := by
  induction cs with
  | nil => exact Nat.le_refl _
  | cons c cs ih =>
    have hone : 1 ≤ (escapeChar c).length := by
      unfold escapeChar
      split
      any_goals exact Nat.le_add_left 1 _
      split <;> exact Nat.le_add_left 1 _
    rw [List.flatMap_cons, List.length_append, List.length_cons]
    omega

/-- A text survives being quoted. -/
theorem falls_quote (text : String) : Falls (quote text).toList [.string (some text)] := by
  have hchars : (quote text).toList = '"' :: (text.toList.flatMap escapeChar ++ ['"']) := by
    rw [quote, String.toList_ofList]
    rfl
  rw [hchars]
  refine .token rfl fun rest => ?_
  have hlength := length_le_flatMap text.toList
  obtain ⟨fuel, hfuel⟩ : ∃ fuel, (text.toList.flatMap escapeChar ++ '"' :: rest).length + 1 =
      fuel + text.toList.length + 1 := by
    refine ⟨(text.toList.flatMap escapeChar).length + (rest.length + 1) - text.toList.length, ?_⟩
    rw [List.length_append, List.length_cons]
    omega
  have hread : readToken ('"' :: (text.toList.flatMap escapeChar ++ '"' :: rest)) =
      (readUnits ((text.toList.flatMap escapeChar ++ '"' :: rest).length + 1)
        (text.toList.flatMap escapeChar ++ '"' :: rest)).map fun (units, rest) =>
          (.string ((textOf units).map String.ofList), rest) := rfl
  rw [List.cons_append, List.append_assoc, List.singleton_append, hread, hfuel, readUnits_flatMap,
    Option.map_some]
  simp only [textOf_units, Option.map_some, String.ofList_toList]

/-! ## Sequences -/

/-- Pieces with a separator between them fall into the tokens of each, with those of the separator
between them. -/
theorem Falls.intercalate {sep : List Char} {sepTokens : List Token} (hsep : Falls sep sepTokens)
    {pieces : List (List Char)} {tokens : List (List Token)} (h : List.Forall₂ Falls pieces tokens) :
    Falls (sep.intercalate pieces) (sepTokens.intercalate tokens) := by
  induction h with
  | nil => exact .nil
  | cons hfirst hrest ih =>
    cases hrest with
    | nil => simpa [List.intercalate] using hfirst
    | cons =>
      rw [List.intercalate_cons_cons, List.intercalate_cons_cons]
      exact (hfirst.append hsep).append ih

end ComponentAssembly.Json

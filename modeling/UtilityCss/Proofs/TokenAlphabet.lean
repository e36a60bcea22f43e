/-
The alphabet of tokens that stand for a rule.

Escaping leaves alone what is not visible, and so would let a blank or a line feed of a token
into its selector.  It does not come to that, since no family reads such a character.

* `tokenPunctuation`, `groupPunctuation` — the punctuation of tokens, and the part of it that
  stands in bracket groups only;
* `HasParts.exists_group` — a token is keyword characters and colons, and at most one bracket
  group after them;
* `token_alphabet` — of what characters a token is made, where those of bracket groups stand,
  and what can therefore not come into a selector.
-/
import UtilityCss.Proofs.CompiledTokens
import UtilityCss.Proofs.Escaping

namespace UtilityCss

/-! ### Alphabets -/

/-- The punctuation of tokens. -/
def tokenPunctuation : List CodePoint :=
  ['-', '_', '.', '%', '#', '(', ')', ',', '+', '*', '/', '[', ']', ':']

/-- The punctuation that stands in bracket groups only. -/
def groupPunctuation : List CodePoint :=
  ['(', ')', ',', '+', '*', '#', '%', '_']

/-- Quotes, the backslash and braces. -/
def delimiters : List CodePoint :=
  ['"', '\x27', '\\', '\x7b', '\x7d']

/-- Whether a code point is a visible ASCII character, which a blank is not. -/
def IsGraphic (c : CodePoint) : Prop :=
  0x21 ≤ c.toNat ∧ c.toNat ≤ 0x7E

instance (c : CodePoint) : Decidable (IsGraphic c) := inferInstanceAs (Decidable (_ ∧ _))

theorem isGraphic_of_isAlphanum {c : CodePoint} (h : c.isAlphanum = true) : IsGraphic c := by
  rw [CodePoint.isAlphanum_iff, CodePoint.isAlpha_iff, CodePoint.isLower_iff,
    CodePoint.isDigit_iff] at h
  rw [IsGraphic]
  omega

/-- What is not visible is left as it is by escaping. -/
theorem escape_of_not_isGraphic {s : Text} (h : ∀ c ∈ s, ¬ IsGraphic c) : escape s = s := by
  have hkept : ∀ c ∈ s, escapeChar c = [c] := by
    intro c hc
    have hspecial : isSelectorSpecial c ≠ true := by
      intro hspecial
      have hpunctuation := (isSelectorSpecial_iff.mp hspecial).1
      simp only [isPunctuation, Bool.and_eq_true, decide_eq_true_eq] at hpunctuation
      exact h c hc hpunctuation.1
    rw [escapeChar, if_neg hspecial]
  cases s with
  | nil => rfl
  | cons c rest =>
    have hdigit : c.isDigit ≠ true := fun hdigit =>
      h c List.mem_cons_self (isGraphic_of_isAlphanum (isAlphanum_of_isDigit hdigit))
    rw [escape, if_neg hdigit, List.flatMap_congr hkept, List.flatMap_singleton']

/-- The characters of tokens are letters, digits and the punctuation of tokens. -/
theorem isAlphanum_or_mem_tokenPunctuation {c : CodePoint} (h : c = ':' ∨ isTokenChar c = true) :
    c.isAlphanum = true ∨ c ∈ tokenPunctuation := by
  have hpunctuation : ∀ c ∈ bracketPunctuation, c ∈ tokenPunctuation := by decide
  simp only [isTokenChar, isBracketChar_eq, Bool.or_eq_true, List.contains_iff_mem,
    decide_eq_true_eq] at h
  rcases h with rfl | ((h | h) | rfl) | rfl
  · exact .inr (by decide)
  · exact .inl h
  · exact .inr (hpunctuation c h)
  · exact .inr (by decide)
  · exact .inr (by decide)

theorem isGraphic_of_mem_alphabet {c : CodePoint}
    (h : c.isAlphanum = true ∨ c ∈ tokenPunctuation) : IsGraphic c ∧ c ∉ delimiters := by
  have hpunctuation : ∀ c ∈ tokenPunctuation, IsGraphic c ∧ c ∉ delimiters := by decide
  have hdelimiters : ∀ c ∈ delimiters, c.isAlphanum = false := by decide
  rcases h with halphanum | hmem
  · refine ⟨isGraphic_of_isAlphanum halphanum, fun hmem => ?_⟩
    rw [hdelimiters c hmem] at halphanum
    exact absurd halphanum (by simp)
  · exact hpunctuation c hmem

/-- No punctuation of bracket groups is in keys, nor is a bracket. -/
theorem not_mem_groupPunctuation {c : CodePoint} (h : c = ':' ∨ isStemChar c = true) :
    c ∉ groupPunctuation ∧ c ≠ '[' ∧ c ≠ ']' := by
  have hstem : ∀ c ∈ .char '[' :: .char ']' :: groupPunctuation,
      c ≠ ':' ∧ isStemChar c = false := by decide
  have hnot : c ∉ .char '[' :: .char ']' :: groupPunctuation := by
    intro hmem
    obtain ⟨hcolon, hfalse⟩ := hstem c hmem
    rcases h with hc | hc
    · exact hcolon hc
    · exact absurd (hfalse.symm.trans hc) (by simp)
  simp only [List.mem_cons, not_or] at hnot
  exact ⟨hnot.2.2, hnot.1, hnot.2.1⟩

/-! ### Tokens -/

variable {token base : Text} {b : Option Breakpoint} {v : Option Variant} {u : Utility}

/-- A token is keyword characters and colons, and at most one bracket group after them. -/
theorem HasParts.exists_group (h : HasParts token b v base u) :
    ∃ before group : Text, (∀ c ∈ before, c = ':' ∨ isStemChar c = true) ∧ IsGroup group ∧
      token = before ++ group := by
  obtain ⟨front, hfront, rfl⟩ := Spells.exists_front h.spells
  obtain ⟨stem, group, hstem, hgroup, rfl⟩ := (Utility.isUtility h.reads).spelling
  refine ⟨front ++ stem, group, ?_, hgroup, (List.append_assoc ..).symm⟩
  exact List.forall_mem_append.mpr ⟨hfront, fun c hc => .inr (hstem c hc)⟩

/-- The punctuation of bracket groups stands in a group at the end of the token. -/
theorem HasParts.eq_bracketed (h : HasParts token b v base u)
    (hmem : ∃ c ∈ token, c ∈ groupPunctuation) :
    ∃ before body : Text, token = before ++ bracketed body ∧ IsBody body ∧
      ∀ c ∈ before, c ∉ groupPunctuation ∧ c ≠ '[' ∧ c ≠ ']' := by
  obtain ⟨before, group, hbefore, hgroup, rfl⟩ := h.exists_group
  have hplain : ∀ c ∈ before, c ∉ groupPunctuation ∧ c ≠ '[' ∧ c ≠ ']' := fun c hc =>
    not_mem_groupPunctuation (hbefore c hc)
  rcases hgroup with rfl | ⟨body, hbody, rfl⟩
  · -- without a group there is no place for such a character
    obtain ⟨c, hc, hpunctuation⟩ := hmem
    rw [List.append_nil] at hc
    exact absurd hpunctuation (hplain c hc).1
  · exact ⟨before, body, rfl, hbody, hplain⟩

/-- The characters of selectors are visible or blanks, and delimit nothing but escapes. -/
theorem isGraphic_of_isSelectorChar {c : CodePoint} (h : isSelectorChar c = true) :
    (c = ' ' ∨ IsGraphic c) ∧ (c ∈ delimiters → c = '\\') := by
  have hothers : ∀ c ∈ [CodePoint.char ' ', .char '\\', .char ':', .char '>', .char '~'],
      (c = ' ' ∨ IsGraphic c) ∧ (c ∈ delimiters → c = '\\') := by decide
  rw [isSelectorChar, Bool.or_eq_true, List.contains_iff_mem] at h
  rcases h with htoken | hother
  · obtain ⟨hgraphic, hdelimiter⟩ :=
      isGraphic_of_mem_alphabet (isAlphanum_or_mem_tokenPunctuation (.inr htoken))
    exact ⟨.inr hgraphic, fun hmem => absurd hmem hdelimiter⟩
  · exact hothers c hother

open Selector in
/-- A token that stands for a rule is made of letters, digits and the punctuation of tokens, and
if one of the characters is among it that stand in bracket groups only, then the token ends with
a group that has all of them.  So what escaping leaves as it is, since it is not visible, does not
come into a selector, and no more do quotes, backslashes and braces of a token. -/
theorem token_alphabet {r : Rule} (h : resolve? token = some r) :
    (∀ c ∈ token, c.isAlphanum = true ∨ c ∈ tokenPunctuation) ∧
    ((∃ c ∈ token, c ∈ groupPunctuation) →
      ∃ before body : Text, token = before ++ bracketed body ∧ IsBody body ∧
        ∀ c ∈ before, c ∉ groupPunctuation ∧ c ≠ '[' ∧ c ≠ ']') ∧
    (∀ s, (∀ c ∈ s, ¬ IsGraphic c) → escape s = s) ∧
    (∀ c ∈ token, IsGraphic c ∧ c ∉ delimiters) ∧
    (∃ v rest, r.selector.text = ancestor v ++ (classSelector token ++ rest) ∧ IsTail rest) ∧
    ∀ c ∈ r.selector.text, (c = ' ' ∨ IsGraphic c) ∧ (c ∈ delimiters → c = '\\') := by
  obtain ⟨b, v, base, u, hparts, rfl⟩ := resolve?_eq_some_iff.mp h
  have halphabet : ∀ c ∈ token, c.isAlphanum = true ∨ c ∈ tokenPunctuation := fun c hc =>
    isAlphanum_or_mem_tokenPunctuation (hparts.mem_token c hc)
  refine ⟨halphabet, hparts.eq_bracketed, fun s => escape_of_not_isGraphic,
    fun c hc => isGraphic_of_mem_alphabet (halphabet c hc), ?_, fun c hc => ?_⟩
  · exact ⟨v, _, text_eq _, isTail_tail v u.isBetweenChildren⟩
  · exact isGraphic_of_isSelectorChar ((Rule.wellFormed_of_resolve? h).forall_mem_selector c hc)

/-- The alphabet of a token with both prefixes and a group. -/
theorem token_alphabet_group :
    ∃ r, resolve? "2xl:hover:w-[calc(100%+2px)]" = some r ∧
      ∃ before body : Text, "2xl:hover:w-[calc(100%+2px)]" = before ++ bracketed body ∧
        IsBody body ∧ ∀ c ∈ before, c ∉ groupPunctuation ∧ c ≠ '[' ∧ c ≠ ']' := by
  have hsome : (resolve? "2xl:hover:w-[calc(100%+2px)]").isSome = true := by decide +kernel
  have hmem : ∃ c ∈ Text.ofString "2xl:hover:w-[calc(100%+2px)]", c ∈ groupPunctuation := by
    decide +kernel
  obtain ⟨r, hr⟩ := Option.isSome_iff_exists.mp hsome
  obtain ⟨-, hgroup, -⟩ := token_alphabet hr
  exact ⟨r, hr, hgroup hmem⟩

end UtilityCss

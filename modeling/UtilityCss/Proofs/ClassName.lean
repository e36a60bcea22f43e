/-
Class names read back from selectors.

A class name in a selector is read by the rules for identifiers: a backslash with
one to six hexadecimal digits and a blank after them, which may be missing, stands
for the code point of that number, and a backslash with any other character for that
character.

* `readEscaped` — reads a name up to the first character that does not belong to it;
* `readEscaped_escape` — reading undoes `escape` for names made of characters that
  are escaped or belong to a name;
* `Selector.readToken?_text` — the class in the selector of a token is read without
  knowing the variant, so selectors tell tokens apart;
* `Selector.names_token` — what is read in the selector of a token, from its ancestor
  to its tail.
-/
import UtilityCss.Proofs.SelectorPatch

namespace UtilityCss

/-! ### Reading -/

/-- The value of a row of hexadecimal digits. -/
def hexValue (digits : Text) : Nat :=
  digits.foldl (fun value c => 16 * value + (Text.hexDigit? c).getD 0) 0

/-- What the characters after a backslash stand for, and what follows them. -/
def readEscape? : Text → Option (CodePoint × Text)
  | [] => none
  | c :: rest =>
    let digits := ((c :: rest).takeWhile Text.isHexDigit).take 6
    let after := (c :: rest).drop digits.length
    if digits = [] then some (c, rest)
    else some (.ofNat (hexValue digits), (Text.consume? " " after).getD after)

theorem Text.length_consume? {head s rest : Text} (h : consume? head s = some rest) :
    rest.length ≤ s.length := by
  rw [consume?_eq_some_iff.mp h, List.length_append]
  omega

theorem length_readEscape? {s rest : Text} {c : CodePoint} (h : readEscape? s = some (c, rest)) :
    rest.length < s.length := by
  cases s with
  | nil => exact absurd h (by simp [readEscape?])
  | cons d tail =>
    rw [readEscape?] at h
    split at h
    · obtain ⟨-, rfl⟩ := Prod.mk.inj (Option.some.inj h)
      simp
    · rename_i hdigits
      obtain ⟨-, rfl⟩ := Prod.mk.inj (Option.some.inj h)
      -- at least one digit is taken, and the blank only makes the rest shorter
      set digits := ((d :: tail).takeWhile Text.isHexDigit).take 6 with hdef
      have hpos : 0 < digits.length := List.length_pos_iff.mpr hdigits
      have hdrop : ((d :: tail).drop digits.length).length < (d :: tail).length := by
        rw [List.length_drop, List.length_cons]
        omega
      cases hblank : Text.consume? " " ((d :: tail).drop digits.length) with
      | none => exact hdrop
      | some after => exact Nat.lt_of_le_of_lt (Text.length_consume? hblank) hdrop

/-- Reads a name: the characters that `keep` picks and escapes, up to the first
character that is neither. -/
def readEscaped (keep : CodePoint → Bool) (s : Text) : Text × Text :=
  match s with
  | [] => ([], [])
  | c :: rest =>
    if c = '\\' then
      match _h : readEscape? rest with
      | none => ([], c :: rest)
      | some (d, after) =>
        let (name, tail) := readEscaped keep after
        (d :: name, tail)
    else if keep c then
      let (name, tail) := readEscaped keep rest
      (c :: name, tail)
    else ([], c :: rest)
termination_by s.length
decreasing_by
  · have := length_readEscape? _h
    simp
    omega
  · simp

/-! ### Reading undoes escaping -/

theorem isSelectorSpecial_of_isAlphanum {c : CodePoint} (h : c.isAlphanum = true) :
    isSelectorSpecial c = false := by
  rw [CodePoint.isAlphanum_iff, CodePoint.isAlpha_iff, CodePoint.isLower_iff,
    CodePoint.isDigit_iff] at h
  rw [isSelectorSpecial]
  show (_ && _ && (_ || _ || _ || _)) = false
  grind

theorem isHexDigit_of_isSelectorSpecial {c : CodePoint} (h : isSelectorSpecial c = true) :
    Text.isHexDigit c = false := by
  rw [Bool.eq_false_iff]
  intro hhex
  have hfalse := isSelectorSpecial_of_isAlphanum (isAlphanum_of_isHexDigit hhex)
  exact absurd (hfalse.symm.trans h) (by simp)

/-- A backslash before punctuation leaves the character. -/
theorem readEscape?_special {c : CodePoint} (h : isSelectorSpecial c = true) (rest : Text) :
    readEscape? (c :: rest) = some (c, rest) := by
  simp [readEscape?, isHexDigit_of_isSelectorSpecial h]

theorem hexDigit?_of_isDigit {c : CodePoint} (h : c.isDigit = true) :
    Text.hexDigit? c = some (c.toNat - 0x30) := by
  rw [Text.hexDigit?, if_pos (CodePoint.isDigit_iff.mp h)]

theorem hexValue_digit {c : CodePoint} (h : c.isDigit = true) : hexValue ['3', c] = c.toNat := by
  have hthree : Text.hexDigit? '3' = some 3 := rfl
  have hbounds := CodePoint.isDigit_iff.mp h
  simp only [hexValue, List.foldl_cons, List.foldl_nil, hthree, hexDigit?_of_isDigit h,
    Option.getD_some]
  omega

/-- A digit that is written by its code point is read as the digit. -/
theorem readEscape?_digit {c : CodePoint} (h : c.isDigit = true) (rest : Text) :
    readEscape? ('3' :: c :: ' ' :: rest) = some (c, rest) := by
  have hc : Text.isHexDigit c = true := by rw [Text.isHexDigit, hexDigit?_of_isDigit h]; rfl
  -- the blank after the digit ends the row of hexadecimal digits
  have hdigits : ((.char '3' :: c :: .char ' ' :: rest).takeWhile Text.isHexDigit).take 6 =
      [.char '3', c] := by
    have hthree : Text.isHexDigit '3' = true := rfl
    have hblank : Text.isHexDigit ' ' = false := rfl
    simp [hthree, hblank, hc]
  have hafter : Text.consume? " " (' ' :: rest) = some rest := rfl
  simp only [readEscape?, hdigits]
  rw [hexValue_digit h, CodePoint.ofNat_toNat]
  simp [hafter]

variable {keep : CodePoint → Bool}

theorem readEscaped_cons_keep {c : CodePoint} (hc : c ≠ '\\') (hkeep : keep c = true)
    (rest : Text) :
    readEscaped keep (c :: rest) = (c :: (readEscaped keep rest).1, (readEscaped keep rest).2) := by
  rw [readEscaped, if_neg hc, if_pos hkeep]

theorem readEscaped_cons_escape {c : CodePoint} {rest after : Text}
    (h : readEscape? rest = some (c, after)) :
    readEscaped keep ('\\' :: rest) =
      (c :: (readEscaped keep after).1, (readEscaped keep after).2) := by
  rw [readEscaped, if_pos rfl]
  split
  · rename_i hnone
    exact absurd (hnone.symm.trans h) (by simp)
  · rename_i hsome
    obtain ⟨rfl, rfl⟩ := Prod.mk.inj (Option.some.inj (hsome.symm.trans h))
    rfl

/-- A character after which a name is over. -/
def EndsName (keep : CodePoint → Bool) (rest : Text) : Prop :=
  ∀ c ∈ rest.head?, c ≠ '\\' ∧ keep c = false

instance (keep : CodePoint → Bool) (rest : Text) : Decidable (EndsName keep rest) :=
  inferInstanceAs (Decidable (∀ c ∈ rest.head?, _))

theorem readEscaped_of_endsName {rest : Text} (h : EndsName keep rest) :
    readEscaped keep rest = ([], rest) := by
  cases rest with
  | nil => rw [readEscaped]
  | cons c rest =>
    obtain ⟨hc, hkeep⟩ := h c rfl
    rw [readEscaped, if_neg hc, if_neg (by simp [hkeep])]

theorem readEscaped_escapeChar {c : CodePoint} (h : isSelectorSpecial c = true ∨ keep c = true)
    (rest : Text) :
    readEscaped keep (escapeChar c ++ rest) =
      (c :: (readEscaped keep rest).1, (readEscaped keep rest).2) := by
  rw [escapeChar]
  split
  · exact readEscaped_cons_escape (readEscape?_special ‹_› rest)
  · rename_i hspecial
    refine readEscaped_cons_keep ?_ (h.resolve_left hspecial) rest
    rintro rfl
    exact hspecial (by decide)

theorem readEscaped_flatMap {name : Text}
    (h : ∀ c ∈ name, isSelectorSpecial c = true ∨ keep c = true) (rest : Text) :
    readEscaped keep (name.flatMap escapeChar ++ rest) =
      (name ++ (readEscaped keep rest).1, (readEscaped keep rest).2) := by
  induction name with
  | nil => rfl
  | cons c name ih =>
    obtain ⟨hc, hname⟩ := List.forall_mem_cons.mp h
    rw [List.flatMap_cons, List.append_assoc, readEscaped_escapeChar hc, ih hname]
    rfl

/-- Reading undoes escaping: a name is read back up to its end. -/
theorem readEscaped_escape {name rest : Text}
    (h : ∀ c ∈ name, isSelectorSpecial c = true ∨ keep c = true) (hrest : EndsName keep rest) :
    readEscaped keep (escape name ++ rest) = (name, rest) := by
  rw [escape.eq_def]
  split
  · exact readEscaped_of_endsName hrest
  · rename_i c name
    split
    · -- a digit at the beginning is read from its code point
      rename_i hdigit
      have hname := (List.forall_mem_cons.mp h).2
      have hescape := readEscape?_digit hdigit (name.flatMap escapeChar ++ rest)
      refine (readEscaped_cons_escape hescape).trans ?_
      rw [readEscaped_flatMap hname, readEscaped_of_endsName hrest, List.append_nil]
    · rw [readEscaped_flatMap h, readEscaped_of_endsName hrest, List.append_nil]

/-! ### The class in a selector -/

/-- The characters of a name: letters, digits, underscores and hyphens. -/
def isNameChar (c : CodePoint) : Bool :=
  c.isAlphanum || c = '_' || c = '-'

/-- Whether a written name begins as an identifier does: with an escape, a letter, or
a hyphen and a letter. -/
def beginsIdentifier (s : Text) : Bool :=
  s.head? = some '\\' || beginsName s

/-- Characters of tokens are escaped or belong to a name. -/
theorem isSelectorSpecial_or_isNameChar {c : CodePoint} (h : c = ':' ∨ isTokenChar c = true) :
    isSelectorSpecial c = true ∨ isNameChar c = true := by
  have hpunctuation : ∀ c ∈ bracketPunctuation, isSelectorSpecial c = true ∨ isNameChar c = true := by
    decide
  simp only [isTokenChar, isBracketChar_eq, Bool.or_eq_true, List.contains_iff_mem,
    decide_eq_true_eq] at h
  rcases h with rfl | ((h | h) | rfl) | rfl
  · exact .inl (by decide)
  · exact .inr (by simp [isNameChar, h])
  · exact hpunctuation c h
  · exact .inl (by decide)
  · exact .inl (by decide)

theorem escapeChar_of_isAlpha {c : CodePoint} (h : c.isAlpha = true) : escapeChar c = [c] := by
  rw [escapeChar, isSelectorSpecial_of_isAlphanum (isAlphanum_of_isAlpha h)]
  rfl

theorem escape_of_not_isDigit {c : CodePoint} (h : c.isDigit = false) (rest : Text) :
    escape (c :: rest) = escapeChar c ++ rest.flatMap escapeChar := by
  simp [escape, h]

/-- Escaping keeps the beginning of a name. -/
theorem beginsName_escape {name : Text} (h : beginsName name = true) :
    beginsName (escape name) = true := by
  rw [beginsName.eq_def] at h
  split at h
  · rename_i c rest
    rw [escape_of_not_isDigit rfl, List.flatMap_cons, escapeChar_of_isAlpha h]
    exact h
  · rename_i c rest _
    rw [escape_of_not_isDigit (not_isDigit_of_isAlpha h), escapeChar_of_isAlpha h]
    have hc : c ≠ '-' := by
      rintro rfl
      exact absurd h (by decide)
    simpa [beginsName, hc] using h
  · exact absurd h (by simp)

theorem beginsIdentifier_escape {name : Text} (rest : Text)
    (h : beginsName name = true ∨ name.head?.any CodePoint.isDigit = true) :
    beginsIdentifier (escape name ++ rest) = true := by
  rw [beginsIdentifier, Bool.or_eq_true]
  rcases h with h | h
  · exact .inr (beginsName_append rest (beginsName_escape h))
  · cases name with
    | nil => exact absurd h (by simp)
    | cons c name =>
      have hc : c.isDigit = true := h
      exact .inl (by simp [escape, hc])

namespace Selector

/-- What may follow the class in a selector: a state, the step to the children, both
in this order, or nothing. -/
def IsTail (rest : Text) : Prop :=
  ∃ state step, rest = state ++ step ∧ (state = [] ∨ ∃ s : State, state = ↑":" ++ s.name) ∧
    (step = [] ∨ step = ↑" > :not([hidden]) ~ :not([hidden])")

/-- Reads the class in a selector, after the ancestor that a variant asks for: how the
name is written, and what is read. -/
def readClass? (v : Option Variant) (selector : Text) : Option (Text × Text × Text) := do
  let own ← Text.consume? (ancestor v) selector
  let written ← Text.consume? "." own
  some (written, readEscaped isNameChar written)

theorem isTail_tail (v : Option Variant) (betweenChildren : Bool) :
    IsTail (pseudoClass v ++ childPart betweenChildren) := by
  refine ⟨pseudoClass v, _, rfl, ?_, ?_⟩
  · rcases v with _ | s | _ | _
    case some.state => exact .inr ⟨s, rfl⟩
    all_goals exact .inl rfl
  · cases betweenChildren
    · exact .inl rfl
    · exact .inr rfl

theorem IsTail.endsName {rest : Text} (h : IsTail rest) : EndsName isNameChar rest := by
  obtain ⟨state, step, rfl, hstate, hstep⟩ := h
  intro c hc
  rcases hstate with rfl | ⟨s, rfl⟩
  · rcases hstep with rfl | rfl
    · exact absurd hc (by simp)
    · obtain rfl := Option.some.inj (Option.mem_def.mp hc)
      exact ⟨by decide, by decide⟩
  · obtain rfl := Option.some.inj (Option.mem_def.mp hc)
    exact ⟨by decide, by decide⟩

/-- The class in the selector of a token is read as the token. -/
theorem readClass?_text {token base : Text} {b : Option Breakpoint} {v : Option Variant}
    {u : Utility} (h : HasParts token b v base u) :
    ∃ written rest, readClass? v (text ⟨token, v, u.isBetweenChildren⟩) = some (written, token, rest) ∧
      beginsIdentifier written = true ∧ IsTail rest := by
  set rest := pseudoClass v ++ childPart u.isBetweenChildren
  have htail : IsTail rest := isTail_tail v u.isBetweenChildren
  refine ⟨escape token ++ rest, rest, ?_, ?_, htail⟩
  · have htext : text ⟨token, v, u.isBetweenChildren⟩ =
        ancestor v ++ (↑"." ++ (escape token ++ rest)) :=
      text_eq _
    have hread : readEscaped isNameChar (escape token ++ rest) = (token, rest) :=
      readEscaped_escape (fun c hc => isSelectorSpecial_or_isNameChar (h.mem_token c hc))
        htail.endsName
    rw [readClass?, htext, Text.consume?_eq_some_iff.mpr rfl]
    simp only [Option.bind_eq_bind, Option.bind_some]
    rw [Text.consume?_eq_some_iff.mpr rfl, Option.bind_some, hread]
  · exact beginsIdentifier_escape rest h.beginsName_or_isDigit

/-! ### Selectors tell tokens apart -/

/-- Reads the class in a selector without knowing the variant: the beginnings that
ancestors have are tried first. -/
def readToken? (selector : Text) : Option Text :=
  ((Text.consume? ".group:hover ." selector).or ((Text.consume? ".dark ." selector).or
    (Text.consume? "." selector))).map fun written => (readEscaped isNameChar written).1

/-- A class with another tail is not mistaken for an ancestor. -/
theorem consume?_eq_none_of_tail {own token rest name tail : Text}
    (hread : readEscaped isNameChar own = (token, rest)) (hescape : escape name = name)
    (hname : ∀ c ∈ name, isNameChar c = true) (hne : tail ≠ []) (htail : EndsName isNameChar tail)
    (hrest : Text.consume? tail rest = none) : Text.consume? (name ++ tail) own = none := by
  refine Option.eq_none_iff_forall_ne_some.mpr fun after hafter => ?_
  have hends : EndsName isNameChar (tail ++ after) := by
    obtain ⟨d, tail, rfl⟩ := List.exists_cons_of_ne_nil hne
    exact htail
  have hown : readEscaped isNameChar own = (name, tail ++ after) := by
    rw [Text.consume?_eq_some_iff.mp hafter, List.append_assoc]
    nth_rewrite 1 [← hescape]
    exact readEscaped_escape (fun c hc => .inr (hname c hc)) hends
  -- both readings end the name at the same place
  obtain ⟨-, rfl⟩ := Prod.mk.inj (hread.symm.trans hown)
  exact absurd (hrest.symm.trans (Text.consume?_eq_some_iff.mpr rfl)) (by simp)

theorem IsTail.consume?_eq_none {rest : Text} (h : IsTail rest) :
    Text.consume? ":hover ." rest = none ∧ Text.consume? " ." rest = none := by
  obtain ⟨state, step, rfl, hstate, hstep⟩ := h
  rcases hstate with rfl | ⟨s, rfl⟩
  · rcases hstep with rfl | rfl
    · exact ⟨rfl, rfl⟩
    · exact ⟨rfl, rfl⟩
  · cases s <;> rcases hstep with rfl | rfl <;> exact ⟨rfl, rfl⟩

theorem readToken?_text {token base : Text} {b : Option Breakpoint} {v : Option Variant}
    {u : Utility} (h : HasParts token b v base u) :
    readToken? (text ⟨token, v, u.isBetweenChildren⟩) = some token := by
  obtain ⟨written, rest, hclass, -, htail⟩ := readClass?_text h
  obtain ⟨own, hown, hclass⟩ := Option.bind_eq_some_iff.mp hclass
  obtain ⟨written, hwritten, hsome⟩ := Option.bind_eq_some_iff.mp hclass
  obtain ⟨rfl, hread⟩ := Prod.mk.inj (Option.some.inj hsome)
  rw [readToken?, Text.consume?_eq_some_iff.mp hown, Text.consume?_eq_some_iff.mp hwritten]
  -- without an ancestor, the other two beginnings do not fit
  have hgroup : Text.consume? ".group:hover ." (↑"." ++ written) = none := by
    show Text.consume? (↑"group" ++ ↑":hover .") written = none
    exact consume?_eq_none_of_tail hread (by decide) (by decide) (by decide) (by decide)
      htail.consume?_eq_none.1
  have hdark : Text.consume? ".dark ." (↑"." ++ written) = none := by
    show Text.consume? (↑"dark" ++ ↑" .") written = none
    exact consume?_eq_none_of_tail hread (by decide) (by decide) (by decide) (by decide)
      htail.consume?_eq_none.2
  have hplain : Text.consume? "." ("." ++ written) = some written :=
    Text.consume?_eq_some_iff.mpr rfl
  rcases v with _ | s | _ | _
  case some.groupHover =>
    have hfound : Text.consume? ".group:hover ." (ancestor (some .groupHover) ++ ("." ++ written)) =
        some written := Text.consume?_eq_some_iff.mpr rfl
    rw [hfound, Option.some_or, Option.map_some, hread]
  case some.dark =>
    have hother : Text.consume? ".group:hover ." (ancestor (some .dark) ++ ("." ++ written)) = none :=
      rfl
    have hfound : Text.consume? ".dark ." (ancestor (some .dark) ++ ("." ++ written)) =
        some written := Text.consume?_eq_some_iff.mpr rfl
    rw [hother, hfound, Option.none_or, Option.some_or, Option.map_some, hread]
  all_goals
    show (((Text.consume? _ (↑"." ++ written)).or ((Text.consume? _ (↑"." ++ written)).or
      (Text.consume? _ (↑"." ++ written)))).map _) = _
    rw [hgroup, hdark, hplain, Option.none_or, Option.none_or, Option.map_some, hread]

/-- Tokens with equal selectors are equal. -/
theorem token_injective {token token' : Text} {r r' : Rule} (h : resolve? token = some r)
    (h' : resolve? token' = some r') (heq : r.selector.text = r'.selector.text) :
    token = token' := by
  obtain ⟨b, v, base, u, hparts, rfl⟩ := resolve?_eq_some_iff.mp h
  obtain ⟨b', v', base', u', hparts', rfl⟩ := resolve?_eq_some_iff.mp h'
  refine Option.some.inj ((readToken?_text hparts).symm.trans (Eq.trans ?_ (readToken?_text hparts')))
  exact congrArg readToken? heq

/-- The class in the selector of a token, read after the ancestor that the variant of the
token asks for, is the token; its written form begins as an identifier does, and after it
there is at most a state and the step to the children.  So no other token has the same
selector. -/
theorem names_token {token : Text} {r : Rule} (h : resolve? token = some r) :
    (∃ b v base written rest, Spells token b v base ∧
      readClass? v r.selector.text = some (written, token, rest) ∧
      beginsIdentifier written = true ∧ IsTail rest) ∧
    ∀ token' r', resolve? token' = some r' → r.selector.text = r'.selector.text →
      token = token' := by
  refine ⟨?_, fun token' r' h' heq => token_injective h h' heq⟩
  obtain ⟨b, v, base, u, hparts, rfl⟩ := resolve?_eq_some_iff.mp h
  obtain ⟨written, rest, hclass, hbegins, htail⟩ := readClass?_text hparts
  exact ⟨b, v, base, written, rest, hparts.spells, hclass, hbegins, htail⟩

/-- The class of a token that is written with an ancestor, an escaped digit and the step
to the children. -/
theorem names_token_both :
    ∃ r, resolve? "2xl:dark:space-x-[3px]" = some r ∧
      ∃ written rest, readClass? (some .dark) r.selector.text =
          some (written, ↑"2xl:dark:space-x-[3px]", rest) ∧
        beginsIdentifier written = true ∧ IsTail rest := by
  have hsome : (resolve? "2xl:dark:space-x-[3px]").isSome = true := by decide +kernel
  have hspells : Spells ↑"2xl:dark:space-x-[3px]" (some .xxl) (some .dark) ↑"space-x-[3px]" := by
    unfold Spells
    decide +kernel
  obtain ⟨r, hr⟩ := Option.isSome_iff_exists.mp hsome
  obtain ⟨⟨b, v, base, written, rest, hparts, hclass, hbegins, htail⟩, -⟩ := names_token hr
  obtain ⟨-, rfl, -⟩ := hparts.unique hspells
  exact ⟨r, hr, written, rest, hclass, hbegins, htail⟩

end Selector

end UtilityCss

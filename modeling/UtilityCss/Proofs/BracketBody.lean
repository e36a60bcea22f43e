/-
What the brackets of a token contribute to its declarations.

* `bracketBody` — what stands in the square brackets of a token;
* `HasParts.bracketBody_eq` — prefixes do not change it;
* `IsReading.pair_infix_iff`, `IsReading.roundDepth?_eq` — comment signs and round brackets of a
  value are those of the body it is read from;
* `pair_infix_declarationText`, `roundDepth?_declarationText` — comment signs and round brackets
  of declarations are those of their values;
* `pair_infix_of_resolve?`, `isBalanced_iff_of_resolve?` — so those of a rule are those of the body
  of its token.
-/
import UtilityCss.Proofs.TokenGrammar

namespace UtilityCss

/-! ### The body of a token -/

/-- What stands in the square brackets at the end of a token; nothing if there are none. -/
def bracketBody (token : Text) : Text :=
  ((token.dropWhile (· ≠ .char '[')).drop 1).dropLast

theorem bracketBody_append {before : Text} (h : CodePoint.char '[' ∉ before) (token : Text) :
    bracketBody (before ++ token) = bracketBody token := by
  have hbefore : ∀ c ∈ before, decide (c ≠ CodePoint.char '[') = true := fun c hc =>
    decide_eq_true fun heq => h (heq ▸ hc)
  rw [bracketBody, List.dropWhile_append_of_pos hbefore, bracketBody]

theorem bracketBody_of_notMem {token : Text} (h : CodePoint.char '[' ∉ token) :
    bracketBody token = [] := by
  rw [← List.append_nil token, bracketBody_append h]
  rfl

theorem bracketBody_bracketed (body : Text) : bracketBody (bracketed body) = body := by
  show (body ++ [CodePoint.char ']']).dropLast = body
  exact List.dropLast_concat

theorem IsKey.notMem {s : Text} (h : IsKey s) : CodePoint.char '[' ∉ s := fun hmem =>
  absurd (h _ hmem) (by decide)

/-- Prefixes end before the brackets. -/
theorem HasParts.bracketBody_eq {token base : Text} {b : Option Breakpoint} {v : Option Variant}
    {u : Utility} (h : HasParts token b v base u) : bracketBody token = bracketBody base := by
  obtain ⟨front, hfront, rfl⟩ := Spells.exists_front h.spells
  refine bracketBody_append (fun hmem => ?_) base
  rcases hfront _ hmem with hcolon | hstem
  · exact absurd hcolon (by decide)
  · exact absurd hstem (by decide)

/-! ### Values -/

section Signs

variable {a b : CodePoint}

/-- The two comment signs: a slash and a star. -/
def IsCommentSign (a b : CodePoint) : Prop :=
  (a = '/' ∧ b = '*') ∨ (a = '*' ∧ b = '/')

theorem IsReading.pair_infix_iff {raw value : Text} (hsign : IsCommentSign a b)
    (h : IsReading raw value) : [a, b] <:+: value ↔ [a, b] <:+: bracketBody raw := by
  cases h with
  | fixed hraw hvalue =>
    -- there is no star in a tame value, and no body in a key
    rw [bracketBody_of_notMem hraw.notMem, List.infix_nil]
    refine iff_of_false (fun hinfix => hvalue.star_not_mem ?_) (by simp)
    rcases hsign with ⟨-, rfl⟩ | ⟨rfl, -⟩
    · exact hinfix.subset (by simp)
    · exact hinfix.subset (by simp)
  | @free stem body sign hstem _ hsigns =>
    have hhyphens : ∀ c ∈ sign, c ≠ a ∧ c ≠ b := by
      intro c hc
      rw [hsigns c hc]
      rcases hsign with ⟨rfl, rfl⟩ | ⟨rfl, rfl⟩ <;> decide
    rw [Text.pair_infix_append hhyphens, bracketBody_append hstem.notMem, bracketBody_bracketed,
      shown]
    have hother {d : CodePoint} (hd : d ≠ '_' ∧ d ≠ ' ') (c : CodePoint) :
        (d = if c = .char '_' then .char ' ' else c) ↔ d = c := by
      by_cases hc : c = '_'
      · rw [if_pos hc, hc]
        exact iff_of_false hd.2 hd.1
      · rw [if_neg hc]
    rcases hsign with ⟨rfl, rfl⟩ | ⟨rfl, rfl⟩
    · exact Text.pair_infix_map (hother (by decide)) (hother (by decide)) body
    · exact Text.pair_infix_map (hother (by decide)) (hother (by decide)) body

end Signs

theorem roundDepth?_shown (depth : Nat) (body : Text) :
    Text.roundDepth? depth (shown body) = Text.roundDepth? depth body := by
  have hstep (depth : Nat) (c : CodePoint) :
      Text.roundStep? depth (if c = .char '_' then .char ' ' else c) = Text.roundStep? depth c := by
    split
    · rename_i hc
      rw [hc, Text.roundStep?_of_ne (by decide), Text.roundStep?_of_ne (by decide)]
    · rfl
  rw [Text.roundDepth?, shown, List.foldlM_map]
  simp only [hstep]
  rfl

theorem IsReading.roundDepth?_eq {raw value : Text} (h : IsReading raw value) :
    Text.roundDepth? 0 value = Text.roundDepth? 0 (bracketBody raw) := by
  cases h with
  | fixed hraw hvalue =>
    rw [bracketBody_of_notMem hraw.notMem]
    exact hvalue.balanced
  | @free stem body sign hstem _ hsigns =>
    have hhyphens : ∀ c ∈ sign, c ≠ '(' ∧ c ≠ ')' := by
      intro c hc
      rw [hsigns c hc]
      decide
    rw [Text.roundDepth?_append, Text.roundDepth?_of_forall hhyphens, Option.bind_some,
      roundDepth?_shown, bracketBody_append hstem.notMem, bracketBody_bracketed]

/-! ### Declarations -/

theorem declarationText_cons_cons (d e : Declaration) (ds : List Declaration) :
    declarationText (d :: e :: ds) = d.text ++ .char ';' :: .char ' ' :: declarationText (e :: ds) := by
  rw [declarationText, List.map_cons, List.map_cons, Text.join, List.intercalate_cons_cons,
    Text.ofString_ofList, List.append_assoc]
  rfl

/-- What stands before a value has neither comment signs nor brackets. -/
theorem IsProperty.forall_ne {property : Text} (h : IsProperty property) :
    ∀ c ∈ property ++ ↑": ", (c ≠ '/' ∧ c ≠ '*') ∧ c ≠ '(' ∧ c ≠ ')' := by
  refine List.forall_mem_append.mpr ⟨fun c hc => ?_, by decide⟩
  have hproperty := h.2 c hc
  refine ⟨⟨?_, ?_⟩, ?_, ?_⟩ <;> rintro rfl <;> exact absurd hproperty (by decide)

theorem Declaration.roundDepth?_text {d : Declaration} (h : IsProperty d.property) (depth : Nat) :
    Text.roundDepth? depth d.text = Text.roundDepth? depth d.value := by
  rw [Declaration.text, Text.roundDepth?_append,
    Text.roundDepth?_of_forall fun c hc => (h.forall_ne c hc).2, Option.bind_some]

theorem Declaration.pair_infix_text {a b : CodePoint} (hsign : IsCommentSign a b)
    {d : Declaration} (h : IsProperty d.property) :
    [a, b] <:+: d.text ↔ [a, b] <:+: d.value := by
  refine Text.pair_infix_append (fun c hc => ?_) d.value
  obtain ⟨hslash, hstar⟩ := (h.forall_ne c hc).1
  rcases hsign with ⟨rfl, rfl⟩ | ⟨rfl, rfl⟩
  · exact ⟨hslash, hstar⟩
  · exact ⟨hstar, hslash⟩

/-- A comment sign in declarations is in one of the values. -/
theorem pair_infix_declarationText {a b : CodePoint} (hsign : IsCommentSign a b)
    {ds : List Declaration} (h : ∀ d ∈ ds, IsProperty d.property) :
    [a, b] <:+: declarationText ds ↔ ∃ d ∈ ds, [a, b] <:+: d.value := by
  have hother {c : CodePoint} (hc : c ≠ '/' ∧ c ≠ '*') : c ≠ a ∧ c ≠ b := by
    rcases hsign with ⟨rfl, rfl⟩ | ⟨rfl, rfl⟩
    · exact hc
    · exact hc.symm
  induction ds with
  | nil => simp [declarationText, Text.join]
  | cons d ds ih =>
    obtain ⟨hd, hds⟩ := List.forall_mem_cons.mp h
    cases ds with
    | nil => simp [declarationText_singleton, Declaration.pair_infix_text hsign hd]
    | cons e es =>
      -- no sign reaches over the semicolon between two declarations
      have hblank := Text.pair_infix_append (s := [.char ' '])
        (List.forall_mem_singleton.mpr (hother (by decide))) (declarationText (e :: es))
      rw [List.singleton_append] at hblank
      have hrest : _ ↔ _ := ih hds
      rw [declarationText_cons_cons, Text.pair_infix_append_cons (hother (by decide)), hblank,
        hrest, Declaration.pair_infix_text hsign hd]
      exact (List.exists_mem_cons_iff (fun d : Declaration => [a, b] <:+: d.value) d _).symm

/-- The brackets of declarations are those of their values, one after the other. -/
theorem roundDepth?_declarationText {ds : List Declaration} (h : ∀ d ∈ ds, IsProperty d.property)
    (depth : Nat) : Text.roundDepth? depth (declarationText ds) =
      ds.foldlM (fun depth d => Text.roundDepth? depth d.value) depth := by
  induction ds generalizing depth with
  | nil => rfl
  | cons d ds ih =>
    obtain ⟨hd, hds⟩ := List.forall_mem_cons.mp h
    cases ds with
    | nil =>
      rw [declarationText_singleton, Declaration.roundDepth?_text hd, List.foldlM_cons]
      simp
    | cons e es =>
      rw [declarationText_cons_cons, Text.roundDepth?_append, Declaration.roundDepth?_text hd,
        List.foldlM_cons]
      refine Option.bind_congr fun between _ => ?_
      rw [Text.roundDepth?_cons, Text.roundStep?_of_ne (by decide), Option.bind_some,
        Text.roundDepth?_cons, Text.roundStep?_of_ne (by decide), Option.bind_some, ih hds]

/-! ### Tokens -/

section Tokens

variable {token : Text} {r : Rule}

/-- Every value of a rule is read from the base of its token, which has the same body. -/
theorem Rule.isReadFrom_of_resolve? (h : resolve? token = some r) :
    r.declarations ≠ [] ∧ ∃ base, bracketBody token = bracketBody base ∧
      ∀ d ∈ r.declarations, d.IsReadFrom base := by
  obtain ⟨b, v, base, u, hparts, rfl⟩ := resolve?_eq_some_iff.mp h
  have hutility := Utility.isUtility hparts.reads
  exact ⟨hutility.ne_nil, base, hparts.bracketBody_eq, hutility.isReadFrom⟩

/-- The comment signs of a rule are those of the body of its token. -/
theorem pair_infix_of_resolve? {a b : CodePoint} (hsign : IsCommentSign a b)
    (h : resolve? token = some r) :
    [a, b] <:+: declarationText r.declarations ↔ [a, b] <:+: bracketBody token := by
  obtain ⟨hne, base, hbody, hread⟩ := Rule.isReadFrom_of_resolve? h
  have hvalue (d : Declaration) (hd : d ∈ r.declarations) :
      [a, b] <:+: d.value ↔ [a, b] <:+: bracketBody token := by
    rw [hbody, (hread d hd).reading.pair_infix_iff hsign]
  rw [pair_infix_declarationText hsign fun d hd => (hread d hd).property]
  constructor
  · rintro ⟨d, hd, hinfix⟩
    exact (hvalue d hd).mp hinfix
  · intro hinfix
    obtain ⟨d, hd⟩ := List.exists_mem_of_ne_nil _ hne
    exact ⟨d, hd, (hvalue d hd).mpr hinfix⟩

/-- The same brackets over and over: those that one value leaves open, as often as there are
values. -/
theorem foldlM_roundDepth? {ds : List Declaration} {open? : Option Nat}
    (h : ∀ d ∈ ds, Text.roundDepth? 0 d.value = open?) {left : Nat} (hleft : open? = some left)
    (depth : Nat) : ds.foldlM (fun depth d => Text.roundDepth? depth d.value) depth =
      some (depth + ds.length * left) := by
  induction ds generalizing depth with
  | nil => simp
  | cons d ds ih =>
    obtain ⟨hd, hds⟩ := List.forall_mem_cons.mp h
    have hfirst := Text.roundDepth?_add (hd.trans hleft) depth
    rw [Nat.zero_add] at hfirst
    rw [List.foldlM_cons, hfirst, Option.bind_eq_bind, Option.bind_some, ih hds]
    congr 1
    rw [List.length_cons, Nat.succ_mul]
    omega

/-- The round brackets of a rule are balanced exactly if those of the body of its token are. -/
theorem isBalanced_iff_of_resolve? (h : resolve? token = some r) :
    (declarationText r.declarations).IsBalanced ↔ (bracketBody token).IsBalanced := by
  obtain ⟨hne, base, hbody, hread⟩ := Rule.isReadFrom_of_resolve? h
  have hvalue : ∀ d ∈ r.declarations,
      Text.roundDepth? 0 d.value = Text.roundDepth? 0 (bracketBody token) := by
    intro d hd
    rw [hbody, (hread d hd).reading.roundDepth?_eq]
  rw [Text.IsBalanced, Text.IsBalanced,
    roundDepth?_declarationText fun d hd => (hread d hd).property]
  cases hopen : Text.roundDepth? 0 (bracketBody token) with
  | none =>
    -- the first value closes a bracket that is not open
    obtain ⟨d, ds, hds⟩ := List.exists_cons_of_ne_nil hne
    have hfirst := hvalue d (by simp [hds])
    rw [hds, List.foldlM_cons, hfirst, hopen]
    simp
  | some left =>
    have hlength := List.length_pos_iff.mpr hne
    rw [foldlM_roundDepth? hvalue hopen]
    simp only [Option.some.injEq, Nat.zero_add, Nat.mul_eq_zero]
    omega

end Tokens

end UtilityCss

/-
No token reaches over the braces of its rule, unless its brackets say so.

Everything but the free-form values is made of characters that open nothing, so what a rule
leaves open is what the body of its token leaves open.

* `Selector.settles_text` — the selector of a token opens nothing;
* `Rule.isPlain_of_resolve?` — rules of tokens have plain declarations;
* `rules_contained` — comment signs and round brackets of a rule are those of the body of its
  token, and a sheet of rules that leave nothing open is read by its braces as its rules.
-/
import UtilityCss.Proofs.BlockReader
import UtilityCss.Proofs.BracketBody

namespace UtilityCss

/-! ### Selectors -/

theorem not_mem_openers_of_isNameChar {c : CodePoint} (h : isNameChar c = true) : c ∉ openers := by
  have hopeners : ∀ c ∈ openers, isNameChar c = false := by decide
  intro hmem
  exact absurd h (Bool.eq_false_iff.mp (hopeners c hmem))

theorem settles_escapeChar {c : CodePoint} (h : isSelectorSpecial c = true ∨ isNameChar c = true) :
    Settles (escapeChar c) := by
  rw [escapeChar]
  split
  · exact settles_escaped c
  · rename_i hspecial
    exact settles_singleton (not_mem_openers_of_isNameChar (h.resolve_left hspecial))

theorem settles_flatMap_escapeChar {name : Text}
    (h : ∀ c ∈ name, isSelectorSpecial c = true ∨ isNameChar c = true) :
    Settles (name.flatMap escapeChar) := by
  induction name with
  | nil => exact .nil
  | cons c name ih =>
    obtain ⟨hc, hname⟩ := List.forall_mem_cons.mp h
    exact (settles_escapeChar hc).append (ih hname)

theorem settles_escape {name : Text}
    (h : ∀ c ∈ name, isSelectorSpecial c = true ∨ isNameChar c = true) :
    Settles (escape name) := by
  cases name with
  | nil => exact .nil
  | cons c rest =>
    obtain ⟨hc, hrest⟩ := List.forall_mem_cons.mp h
    rw [escape]
    split
    · rename_i hdigit
      -- a digit at the front is written by its number
      have hnumber : Settles [c, .char ' '] := by
        refine settles_of_forall (List.forall_mem_cons.mpr ⟨not_mem_openers_of_isNameChar ?_, by decide⟩)
        rw [isNameChar, isAlphanum_of_isDigit hdigit]
        rfl
      exact ((settles_escaped '3').append hnumber).append (settles_flatMap_escapeChar hrest)
    · exact settles_flatMap_escapeChar h

theorem Selector.settles_text {s : Selector} (h : ∀ c ∈ s.token, c = ':' ∨ isTokenChar c = true) :
    Settles s.text := by
  have hancestor : Settles (ancestor s.variant) := by
    refine settles_of_forall ?_
    rcases s.variant with _ | s | _ | _
    case some.state => exact List.forall_mem_nil _
    all_goals decide
  have hpseudo : Settles (pseudoClass s.variant) := by
    refine settles_of_forall ?_
    rcases s.variant with _ | s | _ | _
    case some.state => cases s <;> decide
    all_goals decide
  have hchild : Settles (childPart s.betweenChildren) := by
    cases s.betweenChildren
    · exact .nil
    · exact settles_of_isClosed (t := childStep.tail) (by decide)
  have hclass : Settles (classSelector s.token) := by
    refine Settles.append (t := [.char '.']) (settles_singleton (by decide)) (settles_escape fun c hc => ?_)
    exact isSelectorSpecial_or_isNameChar (h c hc)
  rw [text_eq]
  exact hancestor.append (hclass.append (hpseudo.append hchild))

/-! ### Rules of tokens -/

section Tokens

variable {token : Text} {r : Rule}

theorem Rule.isPlain_of_resolve? (h : resolve? token = some r) : r.IsPlain := by
  have hr := Rule.wellFormed_of_resolve? h
  refine ⟨hr.begins, fun c hc => ?_, Selector.settles_text hr.token, fun c hc => ?_⟩
  · have hselector := hr.forall_mem_selector c hc
    constructor <;> rintro rfl <;> exact absurd hselector (by decide)
  · have hother : ∀ d ∈ .char '\x7d' :: strangers,
        ¬(isValueChar d = true ∨ d = ':' ∨ d = ';') := by decide
    have hchar := hr.forall_mem_declarationText c hc
    exact ⟨fun hmem => hother c (List.mem_cons_of_mem _ hmem) hchar,
      fun heq => hother c (heq ▸ List.mem_cons_self) hchar⟩

/-- A body without `/*` and with balanced brackets leaves nothing open in the rule. -/
theorem isClosed_of_resolve? (h : resolve? token = some r)
    (hcomment : ¬↑"/*" <:+: bracketBody token) (hbalanced : (bracketBody token).IsBalanced) :
    IsClosed (declarationText r.declarations) := by
  refine isClosed_of_isBalanced (fun c hc => ((Rule.isPlain_of_resolve? h).declarations c hc).1) ?_
    ((isBalanced_iff_of_resolve? h).mpr hbalanced)
  exact mt (pair_infix_of_resolve? (.inl ⟨rfl, rfl⟩) h).mp hcomment

theorem compile_singleton (h : resolve? token = some r) : compile [token] = Rule.sheet [r] := by
  simp [compile, resolveAll, TokenSet.items_ofList, List.eraseDups_cons, h]

end Tokens

theorem readBlocks?_compile {tokens : List Text}
    (h : ∀ t ∈ tokens, ∀ r, resolve? t = some r → IsClosed (declarationText r.declarations)) :
    readBlocks? (compile tokens) = some ((writtenTokens tokens).filterMap written?) := by
  have hrules : ∀ r ∈ (resolveAll tokens).map Prod.snd,
      r.IsPlain ∧ IsClosed (declarationText r.declarations) := by
    intro r hr
    obtain ⟨p, hp, rfl⟩ := List.mem_map.mp hr
    have hresolve := resolve?_of_mem_resolveAll hp
    exact ⟨Rule.isPlain_of_resolve? hresolve, h p.1 (mem_of_mem_resolveAll hp) p.2 hresolve⟩
  rw [compile, readBlocks?_sheet hrules, map_written_regroup]

/-- The comment signs of a rule are those of the body of its token, and its round brackets are
balanced exactly if those of the body are.  A rule whose body has no `/*` and is balanced leaves
nothing open; the sheet of a token whose rule leaves something open is not closed by its braces.
If the rules of all tokens leave nothing open, the braces of the sheet enclose exactly the
declarations of the rules. -/
theorem rules_contained :
    (∀ token r, resolve? token = some r →
      (↑"/*" <:+: declarationText r.declarations ↔ ↑"/*" <:+: bracketBody token) ∧
      (↑"*/" <:+: declarationText r.declarations ↔ ↑"*/" <:+: bracketBody token) ∧
      ((declarationText r.declarations).IsBalanced ↔ (bracketBody token).IsBalanced) ∧
      (¬↑"/*" <:+: bracketBody token → (bracketBody token).IsBalanced →
        IsClosed (declarationText r.declarations)) ∧
      (¬IsClosed (declarationText r.declarations) → readBlocks? (compile [token]) = none)) ∧
    ∀ tokens,
      (∀ t ∈ tokens, ∀ r, resolve? t = some r → IsClosed (declarationText r.declarations)) →
      readBlocks? (compile tokens) = some ((writtenTokens tokens).filterMap written?) := by
  refine ⟨fun token r h => ⟨?_, ?_, ?_, ?_, ?_⟩, fun tokens => readBlocks?_compile⟩
  · exact pair_infix_of_resolve? (.inl ⟨rfl, rfl⟩) h
  · exact pair_infix_of_resolve? (.inr ⟨rfl, rfl⟩) h
  · exact isBalanced_iff_of_resolve? h
  · exact isClosed_of_resolve? h
  · intro hopen
    rw [compile_singleton h, readBlocks?_eq_none (Rule.isPlain_of_resolve? h) hopen]

/-- Nested brackets and a closed comment stay in their rules; a bracket that is left open does
not. -/
theorem rules_contained_nested :
    readBlocks? (compile ["md:p-[calc(100%_-_(2px*3))]", "flex", "w-[/**/]"]) =
      some [⟨none, ".flex", "display: flex"⟩,
        ⟨none, ".w-\\[\\/\\*\\*\\/\\]", "width: /**/"⟩,
        ⟨some "(min-width: 768px)", ".md\\:p-\\[calc\\(100\\%_-_\\(2px\\*3\\)\\)\\]",
          "padding: calc(100% - (2px*3))"⟩] ∧
      readBlocks? (compile ["hover:-mx-[(]"]) = none ∧
      ∃ r, resolve? "hover:-mx-[(]" = some r ∧ ¬(declarationText r.declarations).IsBalanced := by
  obtain ⟨htokens, hsheets⟩ := rules_contained
  have hclosed : ∀ t ∈ (["md:p-[calc(100%_-_(2px*3))]", "flex", "w-[/**/]"] : List Text),
      ∀ r ∈ resolve? t, IsClosed (declarationText r.declarations) := by
    decide +kernel
  have hopen : ∀ r ∈ resolve? "hover:-mx-[(]", ¬IsClosed (declarationText r.declarations) := by
    decide +kernel
  obtain ⟨r, hr⟩ := Option.isSome_iff_exists.mp
    (by decide +kernel : (resolve? "hover:-mx-[(]").isSome = true)
  obtain ⟨-, -, hbalanced, -, hnone⟩ := htokens _ r hr
  refine ⟨?_, hnone (hopen r hr), r, hr, ?_⟩
  · rw [hsheets _ hclosed]
    decide +kernel
  · rw [hbalanced]
    decide +kernel

/-- A token may leave a comment or a bracket open, and a comment swallows the rules after it. -/
theorem not_contained_open :
    (∃ r, resolve? "p-[/*]" = some r ∧ ↑"/*" <:+: declarationText r.declarations) ∧
    (∃ r, resolve? "p-[(]" = some r ∧ ¬(declarationText r.declarations).IsBalanced) ∧
    (resolve? "flex").isSome = true ∧ readBlocks? (compile ["p-[/*]", "flex"]) = none := by
  have hcomment : (resolve? "p-[/*]").any
      (fun r => decide (↑"/*" <:+: declarationText r.declarations)) = true := by decide +kernel
  have hround : (resolve? "p-[(]").any
      (fun r => decide ¬(declarationText r.declarations).IsBalanced) = true := by decide +kernel
  obtain ⟨r, hr, hinfix⟩ := (Option.any_eq_true _ _).mp hcomment
  obtain ⟨r', hr', hbalanced⟩ := (Option.any_eq_true _ _).mp hround
  refine ⟨⟨r, hr, of_decide_eq_true hinfix⟩, ⟨r', hr', of_decide_eq_true hbalanced⟩, ?_, ?_⟩
  all_goals decide +kernel

end UtilityCss

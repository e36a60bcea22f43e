/-
Selectors edited as texts.

The selector of a token with a prefix comes from that of the token behind the prefix by
editing its text: a variant keeps what follows the class, and a breakpoint replaces the
class where it is first found.  Both edit the class of the token and nothing else.

* `Text.replaceFirst` — the first occurrence of a text, replaced by another;
* `Selector.tailAfter` — what follows a class at the beginning of a selector;
* `text_of_resolveVariant?` — a variant writes its selector before that tail;
* `text_of_resolveBreakpoint?` — a breakpoint replaces the first occurrence of the class,
  which is the class of the token behind it, also after an ancestor.
-/
import UtilityCss.Proofs.TokenGrammar

namespace UtilityCss

/-! ### The first occurrence -/

/-- The text with the first occurrence of `pattern` replaced by `sub`. -/
def Text.replaceFirst (pattern sub s : Text) : Text :=
  match consume? pattern s with
  | some rest => sub ++ rest
  | none =>
    match s with
    | [] => []
    | c :: rest => c :: replaceFirst pattern sub rest

theorem Text.replaceFirst_append (pattern sub rest : Text) :
    replaceFirst pattern sub (pattern ++ rest) = sub ++ rest := by
  rw [replaceFirst.eq_def, consume?_eq_some_iff.mpr rfl]

theorem Text.replaceFirst_cons {pattern sub rest : Text} {c : CodePoint}
    (h : consume? pattern (c :: rest) = none) :
    replaceFirst pattern sub (c :: rest) = c :: replaceFirst pattern sub rest := by
  rw [replaceFirst, h]

/-- Nothing is found among characters that are not the first one of the pattern. -/
theorem Text.replaceFirst_append_of_not_mem {c : CodePoint} {before : Text} (h : c ∉ before)
    (pattern sub rest : Text) :
    replaceFirst (c :: pattern) sub (before ++ rest) =
      before ++ replaceFirst (c :: pattern) sub rest := by
  induction before with
  | nil => rfl
  | cons d before ih =>
    obtain ⟨hne, hmem⟩ := not_or.mp (mt List.mem_cons.mpr h)
    have hnone : consume? (c :: pattern) (d :: (before ++ rest)) = none := by
      rw [consume?, if_neg hne]
    rw [List.cons_append, replaceFirst_cons hnone, ih hmem, List.cons_append]

/-! ### Editing -/

namespace Selector

/-- What follows the class of a token in a selector that begins with it. -/
def tailAfter (token selector : Text) : Text :=
  (Text.consume? (classSelector token) selector).getD []

/-- The step to the children of the element, or nothing. -/
def childPart (betweenChildren : Bool) : Text :=
  if betweenChildren then childStep else ""

/-- A selector is an ancestor, the class, and what follows it. -/
theorem text_eq (s : Selector) :
    s.text = ancestor s.variant ++
      (classSelector s.token ++ (pseudoClass s.variant ++ childPart s.betweenChildren)) := by
  rw [text, List.append_assoc, List.append_assoc]
  rfl

theorem tailAfter_text (token : Text) (betweenChildren : Bool) :
    tailAfter token (text ⟨token, none, betweenChildren⟩) = childPart betweenChildren := by
  have htext : text ⟨token, none, betweenChildren⟩ =
      classSelector token ++ childPart betweenChildren :=
    text_eq _
  rw [tailAfter, htext, Text.consume?_eq_some_iff.mpr rfl, Option.getD_some]

/-- An ancestor has one period, at its beginning. -/
theorem ancestor_cases (v : Option Variant) :
    ancestor v = [] ∨ ∃ before : Text, ancestor v = .char '.' :: before ∧ .char '.' ∉ before := by
  rcases v with _ | s | _ | _
  · exact .inl rfl
  · exact .inl rfl
  · exact .inr ⟨"group:hover ", rfl, by decide⟩
  · exact .inr ⟨"dark ", rfl, by decide⟩

/-- An ancestor does not begin with the class of a token that has its variant. -/
theorem consume?_ancestor {v : Variant} (h : ancestor (some v) ≠ []) (base rest : Text) :
    Text.consume? (classSelector (v.name ++ .char ':' :: base)) (ancestor (some v) ++ rest) =
      none := by
  rcases v with s | _ | _
  · exact absurd rfl h
  · rfl
  · rfl

/-- The first occurrence of the class of a token in its selector is where it is written. -/
theorem replaceFirst_text {token base : Text} {v : Option Variant} (h : Spells token none v base)
    (sub : Text) (betweenChildren : Bool) :
    Text.replaceFirst (classSelector token) sub (text ⟨token, v, betweenChildren⟩) =
      ancestor v ++ (sub ++ (pseudoClass v ++ childPart betweenChildren)) := by
  rw [text_eq]
  dsimp only
  rcases ancestor_cases v with hnil | ⟨before, hancestor, hperiod⟩
  · rw [hnil]
    exact Text.replaceFirst_append ..
  · rcases v with _ | v
    · exact absurd hancestor (List.cons_ne_nil _ _).symm
    · obtain ⟨rest, hcut, -⟩ := spells_variant_iff.mp h
      obtain ⟨-, rfl⟩ := Text.cut?_eq_some_iff.mp hcut
      have hne : ancestor (some v) ≠ [] := by simp [hancestor]
      -- the class is not found at the first period, and there is no other before it
      have hnone (after : Text) :
          Text.consume? (classSelector (v.name ++ .char ':' :: rest))
            (.char '.' :: (before ++ after)) = none := by
        rw [← List.cons_append, ← hancestor]
        exact consume?_ancestor hne rest after
      rw [hancestor, List.cons_append, Text.replaceFirst_cons (hnone _), List.cons_append]
      congr 1
      rw [classSelector, Text.replaceFirst_append_of_not_mem hperiod, ← classSelector,
        Text.replaceFirst_append]

end Selector

open Selector in
/-- A variant writes the class of the whole token, with what it asks for around it, before
what followed the class of the base. -/
theorem text_of_resolveVariant? {token : Text} {r : Rule} (h : resolveVariant? token = some r) :
    ∃ v base r₀, Text.cut? ':' token = some (Variant.name v, base) ∧
      resolveUtility? base = some r₀ ∧
      r.selector.text = ancestor (some v) ++ (classSelector token ++
        (pseudoClass (some v) ++ tailAfter base r₀.selector.text)) := by
  obtain ⟨v, base, u, ⟨hspells, hu⟩, rfl⟩ := resolveVariant?_eq_some_iff.mp h
  obtain ⟨rest, hcut, hrest⟩ := spells_variant_iff.mp hspells
  obtain ⟨-, rfl⟩ := spells_base_iff.mp hrest
  refine ⟨v, base, Rule.ofUtility base u, hcut, by rw [resolveUtility?, hu]; rfl, ?_⟩
  rw [Rule.ofUtility, tailAfter_text]
  exact text_eq _

open Selector in
/-- A breakpoint replaces, where it is first found, the class of what follows it by the class
of the whole token. -/
theorem text_of_resolveBreakpoint? {token : Text} {r : Rule}
    (h : resolveBreakpoint? token = some r) :
    ∃ b rest r₀, Text.cut? ':' token = some (Breakpoint.name b, rest) ∧
      (resolveVariant? rest).or (resolveUtility? rest) = some r₀ ∧
      r.selector.text =
        Text.replaceFirst (classSelector rest) (classSelector token) r₀.selector.text := by
  obtain ⟨b, v, base, u, ⟨hspells, hu⟩, rfl⟩ := resolveBreakpoint?_eq_some_iff.mp h
  obtain ⟨rest, hcut, hrest⟩ := spells_breakpoint_iff.mp hspells
  refine ⟨b, rest, Rule.ofParts rest none v u, hcut, ?_, ?_⟩
  · exact resolveInner_eq_some_iff.mpr ⟨v, base, u, ⟨hrest, hu⟩, rfl⟩
  · rw [Rule.ofParts, Rule.ofParts, replaceFirst_text hrest]
    exact text_eq _

end UtilityCss

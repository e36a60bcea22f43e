/-
What the families write.

The declarations that a family has for a token are written one after the other, with `; ` between
neighbours.

* `Family.written?` — the declarations that one family has for a token, as they are written;
* `Family.written?_of_read?`, `Family.written?_eq_some_iff` — what a family writes for the tokens
  that it reads, and for the spellings of its tokens;
* `inTurn` — the declarations of two tokens, one after the other;
* `assigned` — one value given to several properties;
* `Side.endings` — what a side adds to the name of a property, once for each edge it has;
* `Axis.first`, `Axis.second` — the two edges of an axis in the order in which they are written.
-/
import UtilityCss.Proofs.CheckedFamilies
import UtilityCss.Proofs.FamiliesApart

namespace UtilityCss

/-- The declarations of the rule that one family has for a token, as they are written. -/
def Family.written? (token : Text) (f : Family) : Option Text :=
  (f.rule? token).map fun r => declarationText r.declarations

theorem Family.written?_eq (token : Text) (f : Family) :
    f.written? token = (f.read? token).map fun u => declarationText u.declarations := by
  rw [written?, rule?, Option.map_map]
  rfl

theorem Family.written?_of_read? {α : Type} {token : Text} {f : Family} {o : Option α}
    (wrap : α → Utility) {text : α → Text} (hread : f.read? token = o.map wrap)
    (htext : ∀ u, declarationText (wrap u).declarations = text u) :
    f.written? token = o.map text := by
  rw [written?_eq, hread, Option.map_map]
  congr 1
  funext u
  exact htext u

/-- If all tokens of a family are spelled in some way, and what is written is known of the
spellings, then it is known of all tokens. -/
theorem Family.written?_eq_some_iff {α : Type} {f : Family} {spelled text : α → Text}
    (hwritten : ∀ p, f.written? (spelled p) = some (text p))
    (hspelled : ∀ token, (f.written? token).isSome → ∃ p, spelled p = token) (token s : Text) :
    f.written? token = some s ↔ ∃ p, spelled p = token ∧ s = text p := by
  constructor
  · intro h
    obtain ⟨p, rfl⟩ := hspelled token (Option.isSome_of_eq_some h)
    exact ⟨p, rfl, Option.some.inj (h.symm.trans (hwritten p))⟩
  · rintro ⟨p, rfl, rfl⟩
    exact hwritten p

/-- The declarations of two tokens one after the other, if both have some. -/
def inTurn (first second : Option Text) : Option Text :=
  first.bind fun s => second.map fun t => s ++ "; " ++ t

theorem join_append (sep : Text) {parts parts' : List Text} (h : parts ≠ []) (h' : parts' ≠ []) :
    Text.join sep (parts ++ parts') = Text.join sep parts ++ sep ++ Text.join sep parts' := by
  obtain ⟨first, rest, rfl⟩ := List.exists_cons_of_ne_nil h
  obtain ⟨first', rest', rfl⟩ := List.exists_cons_of_ne_nil h'
  rw [List.cons_append, Text.join_cons, Text.join_cons, Text.join_cons, List.flatMap_append,
    List.flatMap_cons]
  simp only [List.append_assoc]

theorem declarationText_append {ds ds' : List Declaration} (h : ds ≠ []) (h' : ds' ≠ []) :
    declarationText (ds ++ ds') = declarationText ds ++ "; " ++ declarationText ds' := by
  rw [declarationText, List.map_append]
  exact join_append _ (mt List.map_eq_nil_iff.mp h) (mt List.map_eq_nil_iff.mp h')

/-- One value given to several properties. -/
def assigned (properties : List Text) (value : Text) : Text :=
  Text.join "; " (properties.map fun property => property ++ ": " ++ value)

theorem declarationText_assigned (properties : List Text) (value : Text) :
    declarationText (properties.map (⟨·, value⟩)) = assigned properties value := by
  rw [declarationText, List.map_map]
  rfl

theorem assigned_append {properties properties' : List Text} (h : properties ≠ [])
    (h' : properties' ≠ []) (value : Text) :
    assigned (properties ++ properties') value =
      assigned properties value ++ "; " ++ assigned properties' value := by
  rw [← declarationText_assigned, List.map_append,
    declarationText_append (mt List.map_eq_nil_iff.mp h) (mt List.map_eq_nil_iff.mp h'),
    declarationText_assigned, declarationText_assigned]

/-! ### Sides -/

/-- What a side adds to the name of a property, once for each edge it has. -/
def Side.endings : Side → List Text
  | all => [""]
  | axis .x => ["-left", "-right"]
  | axis .y => ["-top", "-bottom"]
  | edge .top => ["-top"]
  | edge .right => ["-right"]
  | edge .bottom => ["-bottom"]
  | edge .left => ["-left"]

theorem Side.endings_eq (side : Side) : side.endings = Checked.suffixes side := by
  rcases side with _ | a | e
  · rfl
  · cases a <;> rfl
  · cases e <;> rfl

theorem Side.properties_eq (stem tail : Text) (side : Side) :
    side.properties stem tail = side.endings.map fun ending => stem ++ ending ++ tail := by
  rw [Checked.properties_eq, endings_eq]

/-- The edge of an axis that is written first. -/
def Axis.first : Axis → Edge
  | x => .left
  | y => .top

/-- The edge of an axis that is written second. -/
def Axis.second : Axis → Edge
  | x => .right
  | y => .bottom

theorem Side.endings_axis (a : Axis) :
    (axis a).endings = (edge a.first).endings ++ (edge a.second).endings := by
  cases a <;> rfl

theorem Side.endings_ne_nil (side : Side) : side.endings ≠ [] := by
  rcases side with _ | a | e
  · exact List.cons_ne_nil _ _
  · cases a <;> exact List.cons_ne_nil _ _
  · cases e <;> exact List.cons_ne_nil _ _

end UtilityCss

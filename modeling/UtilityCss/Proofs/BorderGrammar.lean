/-
The grammar of corner radii and border widths.

A radius has a size and corners, a border a side and a width, and each of them may be left out.
Both begin with a hyphen, so that the parts compete for it; still there is one way to take a token
apart.

* `RadiusSpelling`, `BorderSpelling` — the tokens, well-formed by construction;
* `Radius.ofToken?_spelled`, `BorderWidth.ofToken?_spelled` — what is read of any size before a
  keyword for corners, and of any width after a side;
* `RadiusSpelling.token_inj`, `BorderSpelling.token_inj` — the parts are determined by the token;
* `IsBorderInTurn` — widths one after the other, with one style at the end;
* `border_grammar` — the tokens of the two families, what they declare, and how both corners of
  an edge and both edges of an axis are composed.
-/
import UtilityCss.Proofs.FamilyText

namespace UtilityCss

/-! ### Corner radii -/

/-- The keyword of corners: two letters for a corner, one for an edge. -/
def Corners.keyword : Corners → Text
  | one .topLeft => "tl"
  | one .topRight => "tr"
  | one .bottomLeft => "bl"
  | one .bottomRight => "br"
  | along .top => "t"
  | along .right => "r"
  | along .bottom => "b"
  | along .left => "l"

/-- The token of a radius with a size and corners, if they are given. -/
def Radius.spelled (size : Option Text) (corners : Option Corners) : Text :=
  "rounded" ++ marked "-" size ++ marked "-" (corners.map Corners.keyword)

/-- The properties that are given the radius, one for each corner that is named. -/
def Radius.properties : Option Corners → List Text
  | none => ["border-radius"]
  | some corners => corners.toList.map fun c => "border-" ++ c.name ++ "-radius"

/-- The declarations of a radius. -/
def Radius.text (corners : Option Corners) (value : Text) : Text :=
  assigned (properties corners) value

/-- A corner radius, with a size of the scale and corners or without. -/
structure RadiusSpelling where
  size : Option Text
  corners : Option Corners
  value : Text
  ne_default : ∀ s ∈ size, s ≠ "DEFAULT"
  lookup_size : radiusScale.lookup (size.getD "DEFAULT") = some value

namespace RadiusSpelling

/-- The token of the radius. -/
def token (p : RadiusSpelling) : Text :=
  Radius.spelled p.size p.corners

/-- The declarations of the radius. -/
def text (p : RadiusSpelling) : Text :=
  Radius.text p.corners p.value

end RadiusSpelling

theorem Corners.ofText?_keyword (corners : Corners) : ofText? corners.keyword = some corners := by
  rcases corners with c | e
  · cases c <;> rfl
  · cases e <;> rfl

theorem Corners.keyword_of_ofText? {part : Text} {corners : Corners}
    (h : ofText? part = some corners) : part = corners.keyword := by
  have hkeywords : ∀ key ∈ Checked.cornerNames.map Prod.fst,
      (ofText? key).map keyword = some key := by decide +kernel
  have hkey := hkeywords part (Checked.mem_cornerNames h)
  rw [h] at hkey
  exact (Option.some.inj hkey).symm

theorem Corners.isKeyword (corners : Corners) :
    .char '-' ∉ corners.keyword ∧ corners.keyword ≠ "DEFAULT" := by
  rcases corners with c | e
  · cases c <;> decide
  · cases e <;> decide

/-- The value of a size, the default if it is left out.  The default has no name. -/
def radiusValue? (size : Option Text) : Option Text :=
  if size = some ↑"DEFAULT" then none else radiusScale.lookup (size.getD "DEFAULT")

theorem radiusScale_keys : ∀ e ∈ radiusScale,
    .char '-' ∉ e.1 ∧ Corners.ofText? e.1 = none := by
  decide +kernel

namespace Radius

/-- A single part is a size, unless it names corners. -/
theorem readParts?_one {part : Text} (h : part ≠ "DEFAULT") :
    readParts? [part] =
      match Corners.ofText? part with
      | some corners => some (↑"DEFAULT", some corners)
      | none => some (part, none) := by
  have hdefault : ¬[part].contains ↑"DEFAULT" = true := by simpa using h.symm
  rw [readParts?.eq_def]
  exact if_neg hdefault

theorem readParts?_two {size part : Text} (h : part ≠ "DEFAULT") :
    readParts? [size, part] = if size = "DEFAULT" then none
      else (Corners.ofText? part).map fun corners => (size, some corners) := by
  rw [readParts?.eq_def]
  by_cases hsize : size = "DEFAULT"
  · have hdefault : [size, part].contains ↑"DEFAULT" = true := by simp [hsize]
    rw [if_pos hdefault, if_pos hsize]
  · have hdefault : ¬[size, part].contains ↑"DEFAULT" = true := by
      simp [Ne.symm hsize, Ne.symm h]
    rw [if_neg hdefault, if_neg hsize]

theorem readParts?_three (first second third : Text) (rest : List Text) :
    readParts? (first :: second :: third :: rest) = none := by
  rw [readParts?.eq_def]
  split <;> rfl

/-- A size with a hyphen in it makes too many parts before a keyword for corners. -/
theorem readParts?_of_mem {s : Text} (h : .char '-' ∈ s) (keyword : Text) :
    readParts? (Text.segments '-' (s ++ .char '-' :: keyword)) = none := by
  obtain ⟨⟨before, after⟩, hcut⟩ := Option.ne_none_iff_exists'.mp
    (mt Text.cut?_eq_none_iff.mp (not_not_intro h))
  obtain ⟨hbefore, rfl⟩ := Text.cut?_eq_some_iff.mp hcut
  have hfirst : Text.segments '-' (before ++ .char '-' :: after ++ .char '-' :: keyword) =
      before :: Text.segments '-' (after ++ .char '-' :: keyword) := by
    refine Text.segments_of_cut? (Text.cut?_eq_some_iff.mpr ⟨hbefore, ?_⟩)
    rw [List.append_assoc, List.cons_append]
  rw [hfirst]
  -- what is left after the first part still has a hyphen in it
  rcases hrest : Text.segments '-' (after ++ .char '-' :: keyword) with _ | ⟨second, _ | ⟨third, rest⟩⟩
  · exact absurd hrest (Text.segments_ne_nil _ _)
  · have hhyphen := (Text.segments_eq_singleton_iff.mp hrest).1
    exact absurd (List.mem_append_right after List.mem_cons_self) hhyphen
  · exact readParts?_three before second third rest

/-- The parts are a size and a keyword for corners, where they are given. -/
theorem readParts?_eq_some {parts : List Text} {size : Text} {corners : Option Corners}
    (h : readParts? parts = some (size, corners)) :
    ∃ size? : Option Text, (∀ s ∈ size?, s ≠ "DEFAULT") ∧ size = size?.getD "DEFAULT" ∧
      parts = size?.toList ++ (corners.map Corners.keyword).toList := by
  rw [readParts?.eq_def] at h
  obtain ⟨hdefault, h⟩ := Option.ite_none_left_eq_some.mp h
  rw [List.contains_iff_mem] at hdefault
  have hno : ∀ s ∈ (none : Option Text), s ≠ "DEFAULT" := fun s hs => absurd hs (by simp)
  have hfirst {part : Text} {rest : List Text} (h : ↑"DEFAULT" ∉ part :: rest) :
      ∀ s ∈ some part, s ≠ "DEFAULT" := fun s hs heq =>
    h (List.mem_cons.mpr (.inl (heq.symm.trans (Option.some.inj hs).symm)))
  split at h
  · obtain ⟨rfl, rfl⟩ := Prod.mk.inj (Option.some.inj h)
    exact ⟨none, hno, rfl, rfl⟩
  · split at h
    · rename_i corners hcorners
      obtain ⟨rfl, rfl⟩ := Prod.mk.inj (Option.some.inj h)
      rw [Corners.keyword_of_ofText? hcorners]
      exact ⟨none, hno, rfl, rfl⟩
    · obtain ⟨rfl, rfl⟩ := Prod.mk.inj (Option.some.inj h)
      exact ⟨some _, hfirst hdefault, rfl, rfl⟩
  · obtain ⟨corners, hcorners, heq⟩ := Option.map_eq_some_iff.mp h
    obtain ⟨rfl, rfl⟩ := Prod.mk.inj heq
    refine ⟨some _, hfirst hdefault, rfl, ?_⟩
    rw [Corners.keyword_of_ofText? hcorners]
    rfl
  · exact absurd h (by simp)

/-- From the parts the value is looked up. -/
theorem ofToken?_of_parts {token size : Text} {parts : List Text} {corners : Option Corners}
    (hparts : parts? token = some parts) (hread : readParts? parts = some (size, corners)) :
    ofToken? token = (radiusScale.lookup size).map (⟨corners, ·⟩) := by
  rw [ofToken?, hparts, Option.bind_eq_bind, Option.bind_some, hread]
  exact Option.map_eq_bind.symm

/-- Before a keyword for corners there may be any size of the scale. -/
theorem ofToken?_spelled (size : Option Text) (corners : Corners) :
    ofToken? (spelled size (some corners)) = (radiusValue? size).map (⟨some corners, ·⟩) := by
  obtain ⟨hhyphen, hdefault⟩ := corners.isKeyword
  have hkeyword := Corners.ofText?_keyword corners
  cases size with
  | none =>
    have hparts : parts? (spelled none (some corners)) = some [corners.keyword] :=
      parts?_eq_some_iff.mpr
        (.inr ⟨corners.keyword, rfl, (Text.segments_of_not_mem hhyphen).symm⟩)
    exact ofToken?_of_parts hparts (by rw [readParts?_one hdefault, hkeyword])
  | some s =>
    have hparts : parts? (spelled (some s) (some corners)) =
        some (Text.segments '-' (s ++ .char '-' :: corners.keyword)) :=
      parts?_eq_some_iff.mpr (.inr ⟨_, List.append_assoc _ _ _, rfl⟩)
    have hnone (h : readParts? (Text.segments '-' (s ++ .char '-' :: corners.keyword)) = none) :
        ofToken? (spelled (some s) (some corners)) = none := by
      rw [ofToken?, hparts, Option.bind_eq_bind, Option.bind_some, h]
      rfl
    -- with a hyphen in it, a size is no key of the scale
    by_cases hmem : .char '-' ∈ s
    · have hlookup : radiusScale.lookup s = none :=
        Option.eq_none_iff_forall_ne_some.mpr fun value hvalue =>
          (radiusScale_keys _ (mem_of_lookup hvalue)).1 hmem
      rw [hnone (readParts?_of_mem hmem _), radiusValue?, Option.getD_some, hlookup, ite_self]
      rfl
    · have hread : readParts? (Text.segments '-' (s ++ .char '-' :: corners.keyword)) =
          if s = "DEFAULT" then none else some (s, some corners) := by
        rw [Text.segments_of_cut? (Text.cut?_eq_some_iff.mpr ⟨hmem, rfl⟩),
          Text.segments_of_not_mem hhyphen, readParts?_two hdefault, hkeyword]
        rfl
      by_cases hs : s = "DEFAULT"
      · rw [if_pos hs] at hread
        rw [hnone hread, radiusValue?, if_pos (congrArg some hs)]
        rfl
      · rw [if_neg hs] at hread
        rw [ofToken?_of_parts hparts hread, radiusValue?, if_neg (mt Option.some.inj hs)]
        rfl

end Radius

namespace RadiusSpelling

theorem ofToken?_token (p : RadiusSpelling) :
    Radius.ofToken? p.token = some ⟨p.corners, p.value⟩ := by
  obtain ⟨size, corners, value, hdefault, hlookup⟩ := p
  show Radius.ofToken? (Radius.spelled size corners) = some ⟨corners, value⟩
  cases corners with
  | some corners =>
    have hsize : size ≠ some ↑"DEFAULT" := fun h => hdefault _ h rfl
    rw [Radius.ofToken?_spelled, radiusValue?, if_neg hsize, hlookup]
    rfl
  | none =>
    cases size with
    | none =>
      have hparts : Radius.parts? (Radius.spelled none none) = some [] := rfl
      rw [Option.getD_none] at hlookup
      rw [Radius.ofToken?_of_parts hparts rfl, hlookup]
      rfl
    | some s =>
      rw [Option.getD_some] at hlookup
      obtain ⟨hhyphen, hcorners⟩ := radiusScale_keys _ (mem_of_lookup hlookup)
      have hparts : Radius.parts? (Radius.spelled (some s) none) = some [s] :=
        Radius.parts?_eq_some_iff.mpr
          (.inr ⟨s, List.append_nil _, (Text.segments_of_not_mem hhyphen).symm⟩)
      have hread : Radius.readParts? [s] = some (s, none) := by
        rw [Radius.readParts?_one (hdefault s rfl), hcorners]
      rw [Radius.ofToken?_of_parts hparts hread, hlookup]
      rfl

/-- The parts of a token are determined by it. -/
theorem token_inj {p q : RadiusSpelling} (h : p.token = q.token) : p = q := by
  have hread := p.ofToken?_token
  rw [h, q.ofToken?_token] at hread
  obtain ⟨hcorners, hvalue⟩ := Radius.mk.inj (Option.some.inj hread)
  obtain ⟨size, corners, value, hdefault, hlookup⟩ := p
  obtain ⟨size', corners', value', hdefault', hlookup'⟩ := q
  dsimp only at hcorners hvalue
  subst hcorners hvalue
  -- the corners end both tokens
  have hsize : size = size' :=
    marked_inj (by decide) (List.append_cancel_left (List.append_cancel_right h))
  subst hsize
  rfl

end RadiusSpelling

/-- What is read as a radius is spelled by a size and corners. -/
theorem Radius.exists_spelling {token : Text} {u : Radius} (h : ofToken? token = some u) :
    ∃ p : RadiusSpelling, p.token = token := by
  obtain ⟨parts, hparts, h⟩ := Option.bind_eq_some_iff.mp h
  obtain ⟨⟨size, corners⟩, hread, h⟩ := Option.bind_eq_some_iff.mp h
  obtain ⟨value, hvalue, -⟩ := Option.bind_eq_some_iff.mp h
  obtain ⟨size?, hdefault, rfl, rfl⟩ := readParts?_eq_some hread
  refine ⟨⟨size?, corners, value, hdefault, hvalue⟩, ?_⟩
  have hmarked (s : Option Text) : s.toList.flatMap (CodePoint.char '-' :: ·) = marked "-" s := by
    cases s with
    | none => rfl
    | some s => exact List.flatMap_singleton _ s
  rw [eq_of_parts? hparts, List.flatMap_append, hmarked, hmarked, ← List.append_assoc]
  rfl

/-! ### Border widths -/

/-- The token of a border with a width, if it is given. -/
def BorderWidth.spelled (side : Side) (width : Option Text) : Text :=
  "border" ++ marked "-" side.letter? ++ marked "-" width

/-- The properties that are given the width, one for each edge of the side. -/
def BorderWidth.properties (side : Side) : List Text :=
  side.endings.map ("border" ++ · ++ "-width")

/-- The declarations of a border: the width, and the style at the end. -/
def BorderWidth.text (side : Side) (value : Text) : Text :=
  assigned (properties side) value ++ "; border-style: solid"

/-- A border, with a width of one to four digits or without. -/
structure BorderSpelling where
  side : Side
  width : Option Text
  isWidth : ∀ w ∈ width, isDigits 1 4 w = true

/-- The width of a border in pixels, one if it is left out. -/
def pixels (width : Option Text) : Text :=
  width.getD "1" ++ "px"

namespace BorderSpelling

/-- The token of the border. -/
def token (p : BorderSpelling) : Text :=
  BorderWidth.spelled p.side p.width

/-- The declarations of the border. -/
def text (p : BorderSpelling) : Text :=
  BorderWidth.text p.side (pixels p.width)

end BorderSpelling

theorem Side.exists_letter : ∀ {side : Side}, side ≠ .all → ∃ c, ofLetter? c = some side
  | all, h => absurd rfl h
  | axis .x, _ => ⟨.char 'x', rfl⟩
  | axis .y, _ => ⟨.char 'y', rfl⟩
  | edge .top, _ => ⟨.char 't', rfl⟩
  | edge .right, _ => ⟨.char 'r', rfl⟩
  | edge .bottom, _ => ⟨.char 'b', rfl⟩
  | edge .left, _ => ⟨.char 'l', rfl⟩

namespace BorderWidth

/-- After the letter of a side there may be anything that begins with a hyphen. -/
theorem readSide_letter {side : Side} (h : side ≠ .all) (width : Option Text) :
    readSide (marked "-" side.letter? ++ marked "-" width) = (side, marked "-" width) := by
  obtain ⟨c, hc⟩ := Side.exists_letter h
  rw [Side.letter?_of_ofLetter? hc]
  cases width with
  | none =>
    show readSide [.char '-', c] = _
    simp only [readSide, hc]
    rfl
  | some w =>
    show readSide (.char '-' :: c :: .char '-' :: w) = _
    simp only [readSide, hc]
    rfl

theorem not_side_of_isDigit {c : CodePoint} (h : c.isDigit = true) : Side.ofLetter? c = none := by
  refine Option.eq_none_iff_forall_ne_some.mpr fun side hside => ?_
  have hlower := CodePoint.isLower_iff.mp (Side.isLower_of_ofLetter? hside)
  have hdigit := CodePoint.isDigit_iff.mp h
  omega

/-- A row of digits after a hyphen is not the letter of a side. -/
theorem readSide_width {width : Option Text} (h : ∀ w ∈ width, isDigits 1 4 w = true) :
    readSide (marked "-" width) = (.all, marked "-" width) := by
  cases width with
  | none => rfl
  | some w =>
    have hdigits := h w rfl
    simp only [isDigits, Bool.and_eq_true, List.all_eq_true] at hdigits
    -- a side would take the first digit for its letter
    rw [readSide.eq_def]
    split
    · rename_i c heq
      have hw : w = [c] := (List.cons.inj heq).2
      rw [not_side_of_isDigit (hdigits.2 c (by simp [hw]))]
    · rename_i c rest heq
      have hw : w = c :: .char '-' :: rest := (List.cons.inj heq).2
      rw [not_side_of_isDigit (hdigits.2 c (by simp [hw]))]
    · rfl

/-- The width that is read: one pixel if it is left out. -/
def width? : Option Text → Option Text
  | none => some (pixels none)
  | some w => if isDigits 1 4 w then some (pixels (some w)) else none

theorem readWidth?_marked (width : Option Text) : readWidth? (marked "-" width) = width? width := by
  cases width <;> rfl

theorem eq_of_readWidth? {s value : Text} (h : readWidth? s = some value) :
    ∃ width : Option Text, (∀ w ∈ width, isDigits 1 4 w = true) ∧ s = marked "-" width := by
  rw [readWidth?.eq_def] at h
  split at h
  · exact ⟨none, fun w hw => absurd hw (by simp), rfl⟩
  · rename_i digits
    obtain ⟨hdigits, -⟩ := Option.ite_none_right_eq_some.mp h
    exact ⟨some digits, fun w hw => Option.some.inj hw ▸ hdigits, rfl⟩
  · exact absurd h (by simp)

theorem ofToken?_of_readSide {width : Option Text} {side : Side} (h : readSide
    (marked "-" side.letter? ++ marked "-" width) = (side, marked "-" width)) :
    ofToken? (spelled side width) = (width? width).map (⟨side, ·⟩) := by
  have hrest : Text.consume? "border" (spelled side width) =
      some (marked "-" side.letter? ++ marked "-" width) :=
    Text.consume?_eq_some_iff.mpr (List.append_assoc _ _ _)
  rw [ofToken?, hrest, Option.bind_eq_bind, Option.bind_some, h, ← readWidth?_marked]
  exact Option.map_eq_bind.symm

/-- After a side there may be any width. -/
theorem ofToken?_spelled {side : Side} (h : side ≠ .all) (width : Option Text) :
    ofToken? (spelled side width) = (width? width).map (⟨side, ·⟩) :=
  ofToken?_of_readSide (readSide_letter h width)

end BorderWidth

namespace BorderSpelling

theorem ofToken?_token (p : BorderSpelling) :
    BorderWidth.ofToken? p.token = some ⟨p.side, pixels p.width⟩ := by
  have hside : BorderWidth.readSide (marked "-" p.side.letter? ++ marked "-" p.width) =
      (p.side, marked "-" p.width) := by
    by_cases hall : p.side = .all
    · rw [hall]
      exact BorderWidth.readSide_width p.isWidth
    · exact BorderWidth.readSide_letter hall p.width
  have hwidth : BorderWidth.width? p.width = some (pixels p.width) := by
    cases h : p.width with
    | none => rfl
    | some w => exact if_pos (p.isWidth w h)
  rw [token, BorderWidth.ofToken?_of_readSide hside, hwidth]
  rfl

/-- The parts of a token are determined by it. -/
theorem token_inj {p q : BorderSpelling} (h : p.token = q.token) : p = q := by
  have hread := p.ofToken?_token
  rw [h, q.ofToken?_token] at hread
  obtain ⟨hside, -⟩ := BorderWidth.mk.inj (Option.some.inj hread)
  obtain ⟨side, width, hwidth⟩ := p
  obtain ⟨side', width', hwidth'⟩ := q
  dsimp only at hside
  subst hside
  -- after the side the widths are left
  have hsame : width = width' := marked_inj (by decide) (List.append_cancel_left h)
  subst hsame
  rfl

end BorderSpelling

/-- What is read as a border is spelled by a side and a width. -/
theorem BorderWidth.exists_spelling {token : Text} {u : BorderWidth}
    (h : ofToken? token = some u) : ∃ p : BorderSpelling, p.token = token := by
  obtain ⟨rest, hrest, hread⟩ := Option.bind_eq_some_iff.mp h
  obtain rfl := Text.consume?_eq_some_iff.mp hrest
  rcases hside : readSide rest with ⟨side, left⟩
  rw [hside] at hread
  obtain ⟨value, hvalue, -⟩ := Option.bind_eq_some_iff.mp hread
  obtain ⟨width, hwidth, rfl⟩ := eq_of_readWidth? hvalue
  refine ⟨⟨side, width, hwidth⟩, ?_⟩
  rw [eq_of_readSide hside]
  exact List.append_assoc _ _ _

/-! ### What is written -/

theorem Radius.written?_eq (token : Text) :
    Family.written? token .radius = (ofToken? token).map fun u => text u.corners u.value := by
  refine Family.written?_of_read? .radius rfl fun u => ?_
  have hdeclarations : u.declarations = (properties u.corners).map (⟨·, u.value⟩) := by
    rw [declarations]
    cases u.corners with
    | none => rfl
    | some corners =>
      rw [properties, List.map_map]
      rfl
  show declarationText u.declarations = _
  rw [hdeclarations, declarationText_assigned]
  rfl

theorem BorderWidth.properties_ne_nil (side : Side) : properties side ≠ [] :=
  mt List.map_eq_nil_iff.mp side.endings_ne_nil

theorem BorderWidth.written?_eq (token : Text) :
    Family.written? token .borderWidth =
      (ofToken? token).map fun u => text u.side u.value := by
  refine Family.written?_of_read? .borderWidth rfl fun u => ?_
  have hproperties : u.side.properties "border" "-width" = properties u.side :=
    Side.properties_eq _ _ _
  have hne : (properties u.side).map (⟨·, u.value⟩) ≠ ([] : List Declaration) :=
    mt List.map_eq_nil_iff.mp (properties_ne_nil u.side)
  have hstyle : "; " ++ Declaration.text ⟨"border-style", "solid"⟩ =
      ("; border-style: solid" : Text) := by
    decide +kernel
  show declarationText u.declarations = _
  rw [declarations, hproperties, declarationText_append hne (List.cons_ne_nil _ _),
    declarationText_assigned, declarationText_singleton, List.append_assoc, hstyle]
  rfl

/-! ### Both corners of an edge, both edges of an axis -/

/-- The corner of an edge that is written first. -/
def Edge.firstCorner : Edge → Corner
  | top => .topLeft
  | right => .topRight
  | bottom => .bottomLeft
  | left => .topLeft

/-- The corner of an edge that is written second. -/
def Edge.secondCorner : Edge → Corner
  | top => .topRight
  | right => .bottomRight
  | bottom => .bottomRight
  | left => .bottomLeft

theorem Radius.text_along (e : Edge) (value : Text) :
    text (some (.along e)) value = text (some (.one e.firstCorner)) value ++ "; " ++
      text (some (.one e.secondCorner)) value := by
  have hcorners : properties (some (.along e)) =
      properties (some (.one e.firstCorner)) ++ properties (some (.one e.secondCorner)) := by
    cases e <;> rfl
  rw [text, hcorners]
  exact assigned_append (List.cons_ne_nil _ _) (List.cons_ne_nil _ _) value

/-- Any size is written for an edge like for the corners of the edge, in turn. -/
theorem Radius.written?_along (e : Edge) (size : Option Text) :
    Family.written? (spelled size (some (.along e))) .radius =
      inTurn (Family.written? (spelled size (some (.one e.firstCorner))) .radius)
        (Family.written? (spelled size (some (.one e.secondCorner))) .radius) := by
  rw [written?_eq, written?_eq, written?_eq, ofToken?_spelled, ofToken?_spelled, ofToken?_spelled]
  cases radiusValue? size with
  | none => rfl
  | some value => exact congrArg some (text_along e value)

/-- Two borders one after the other: the widths of both, and one style at the end. -/
def IsBorderInTurn (first second both : Option Text) : Prop :=
  (first = none ∧ second = none ∧ both = none) ∨
    ∃ s t : Text, first = some (s ++ "; border-style: solid") ∧
      second = some (t ++ "; border-style: solid") ∧
      both = some (s ++ "; " ++ t ++ "; border-style: solid")

theorem BorderWidth.properties_axis (a : Axis) :
    properties (.axis a) = properties (.edge a.first) ++ properties (.edge a.second) := by
  rw [properties, Side.endings_axis, List.map_append]
  rfl

/-- Any width is written for an axis like for the edges of the axis, in turn. -/
theorem BorderWidth.written?_axis (a : Axis) (width : Option Text) :
    IsBorderInTurn (Family.written? (spelled (.edge a.first) width) .borderWidth)
      (Family.written? (spelled (.edge a.second) width) .borderWidth)
      (Family.written? (spelled (.axis a) width) .borderWidth) := by
  have hedge (e : Edge) : Side.edge e ≠ .all := Side.noConfusion
  have haxis : Side.axis a ≠ .all := Side.noConfusion
  rw [written?_eq, written?_eq, written?_eq, ofToken?_spelled (hedge _), ofToken?_spelled (hedge _),
    ofToken?_spelled haxis]
  cases width? width with
  | none => exact .inl ⟨rfl, rfl, rfl⟩
  | some value =>
    refine .inr ⟨_, _, rfl, rfl, congrArg some ?_⟩
    show text (.axis a) value = _
    rw [text, properties_axis, assigned_append (properties_ne_nil _) (properties_ne_nil _)]

/-! ### The grammar -/

/-- The tokens of radii and borders are exactly their spellings, whose parts are determined by the
token and say what is declared.  Both corners of an edge are written like the corners alone, in
turn, and the widths of both edges of an axis like those of the edges alone. -/
theorem border_grammar :
    (∀ token text : Text, Family.written? token .radius = some text ↔
      ∃ p : RadiusSpelling, p.token = token ∧ text = p.text) ∧
    (∀ p q : RadiusSpelling, p.token = q.token → p = q) ∧
    (∀ token text : Text, Family.written? token .borderWidth = some text ↔
      ∃ p : BorderSpelling, p.token = token ∧ text = p.text) ∧
    (∀ p q : BorderSpelling, p.token = q.token → p = q) ∧
    (∀ (e : Edge) (size : Option Text),
      Family.written? (Radius.spelled size (some (.along e))) .radius =
        inTurn (Family.written? (Radius.spelled size (some (.one e.firstCorner))) .radius)
          (Family.written? (Radius.spelled size (some (.one e.secondCorner))) .radius)) ∧
    (∀ (a : Axis) (width : Option Text),
      IsBorderInTurn (Family.written? (BorderWidth.spelled (.edge a.first) width) .borderWidth)
        (Family.written? (BorderWidth.spelled (.edge a.second) width) .borderWidth)
        (Family.written? (BorderWidth.spelled (.axis a) width) .borderWidth)) := by
  have hradius (p : RadiusSpelling) : Family.written? p.token .radius = some p.text := by
    rw [Radius.written?_eq, p.ofToken?_token]
    rfl
  have hborder (p : BorderSpelling) : Family.written? p.token .borderWidth = some p.text := by
    rw [BorderWidth.written?_eq, p.ofToken?_token]
    rfl
  refine ⟨Family.written?_eq_some_iff hradius fun token h => ?_, fun _ _ => RadiusSpelling.token_inj,
    Family.written?_eq_some_iff hborder fun token h => ?_, fun _ _ => BorderSpelling.token_inj,
    Radius.written?_along, BorderWidth.written?_axis⟩
  · rw [Radius.written?_eq, Option.isSome_map] at h
    obtain ⟨u, hu⟩ := Option.isSome_iff_exists.mp h
    exact Radius.exists_spelling hu
  · rw [BorderWidth.written?_eq, Option.isSome_map] at h
    obtain ⟨u, hu⟩ := Option.isSome_iff_exists.mp h
    exact BorderWidth.exists_spelling hu

/-- A large radius of both upper corners, and a border of both sides. -/
theorem border_grammar_large :
    Family.written? "rounded-lg-t" .radius =
        some "border-top-left-radius: 0.5rem; border-top-right-radius: 0.5rem" ∧
      Family.written? "border-x-02" .borderWidth =
        some "border-left-width: 02px; border-right-width: 02px; border-style: solid" ∧
      (∀ p : RadiusSpelling, p.token = "rounded-lg-t" → p.corners = some (.along .top)) ∧
      ∀ p : BorderSpelling, p.token = "border-x-02" → p.side = .axis .x := by
  obtain ⟨hradius, hradiusInj, hborder, hborderInj, -⟩ := border_grammar
  let large : RadiusSpelling :=
    ⟨some "lg", some (.along .top), "0.5rem", by decide +kernel, by decide +kernel⟩
  let wide : BorderSpelling := ⟨.axis .x, some "02", by decide +kernel⟩
  have hlarge : large.token = "rounded-lg-t" := by decide +kernel
  have hwide : wide.token = "border-x-02" := by decide +kernel
  refine ⟨(hradius _ _).mpr ⟨large, hlarge, by decide +kernel⟩,
    (hborder _ _).mpr ⟨wide, hwide, by decide +kernel⟩, fun p hp => ?_, fun p hp => ?_⟩
  · rw [hradiusInj p large (hp.trans hlarge.symm)]
  · rw [hborderInj p wide (hp.trans hwide.symm)]

end UtilityCss

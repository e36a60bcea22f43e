/-
The families with all steps checked.

Every family is read from the texts that it captures, with steps that fail where they are not
defined.  None of them ever fails.

* `Checked.perSide` — declarations for the edges of a side, its letter looked up in a table;
* `Checked.spacing`, `Checked.extent`, `Checked.radius`, `Checked.borderWidth` — the families that
  have such steps, each with the lemma that it succeeds;
* `Checked.lookup_eq_of_reads` — a table that holds what a reader reads;
* `Checked.family_eq` — no family fails, and each declares what it declares unchecked.
-/
import UtilityCss.Proofs.CheckedColor

namespace UtilityCss

namespace Checked

/-! ### Sides -/

/-- What each side adds to the name of a property, once for each edge. -/
def sideSuffixes : List (Text × List Text) :=
  [("", [""]), ("x", ["-left", "-right"]), ("y", ["-top", "-bottom"]), ("t", ["-top"]),
   ("r", ["-right"]), ("b", ["-bottom"]), ("l", ["-left"])]

/-- The declarations of a value for each edge of a side. -/
def perSide (stem tail side value : Text) : Except Fault (List Declaration) := do
  let suffixes ← entry sideSuffixes side
  .ok (suffixes.map fun suffix => ⟨stem ++ suffix ++ tail, value⟩)

/-- Whether a code point is the letter of a side. -/
def isSideLetter (c : CodePoint) : Bool :=
  (sideLetters.map .char).contains c

/-- What a side adds to the name of a property. -/
def suffixes : Side → List Text
  | .all => [""]
  | side => side.edges.map fun e => "-" ++ e.name

theorem lookup_letter (side : Side) : sideSuffixes.lookup side.letter = some (suffixes side) := by
  rcases side with _ | a | e
  · rfl
  · cases a <;> rfl
  · cases e <;> rfl

theorem properties_eq (stem tail : Text) (side : Side) :
    side.properties stem tail = (suffixes side).map fun suffix => stem ++ suffix ++ tail := by
  have hempty : Text.ofString "" = [] := rfl
  have hedges (edges : List Edge) : (edges.map fun e => stem ++ "-" ++ e.name ++ tail) =
      (edges.map fun e => Text.ofString "-" ++ e.name).map fun suffix => stem ++ suffix ++ tail := by
    simp only [List.map_map, Function.comp_def, List.append_assoc]
  cases side with
  | all => rw [Side.properties, suffixes, List.map_singleton, hempty, List.append_nil]
  | axis a => exact hedges _
  | edge e => exact hedges _

theorem perSide_eq (stem tail value : Text) (side : Side) :
    perSide stem tail side.letter value =
      .ok ((side.properties stem tail).map (⟨·, value⟩)) := by
  rw [perSide, entry_ok (lookup_letter side), properties_eq, List.map_map]
  rfl

theorem isSideLetter_eq (c : CodePoint) : isSideLetter c = (Side.ofLetter? c).isSome := by
  have hletters : ∀ c ∈ sideLetters.map CodePoint.char, (Side.ofLetter? c).isSome = true := by
    decide
  rw [Bool.eq_iff_iff, isSideLetter, List.contains_iff_mem]
  refine ⟨hletters c, fun h => ?_⟩
  obtain ⟨side, hside⟩ := Option.isSome_iff_exists.mp h
  exact Side.mem_sideLetters hside

/-! ### Padding and margin -/

/-- The letter of a side before a hyphen, or the hyphen alone, and what follows. -/
def sideBefore? : Text → Option (Text × Text)
  | '-' :: rest => some ([], rest)
  | c :: '-' :: rest => if isSideLetter c then some ([c], rest) else none
  | _ => none

theorem sideBefore?_eq (s : Text) :
    sideBefore? s = (Spacing.readSide? s).map fun (side, raw) => (Side.letter side, raw) := by
  fun_cases Spacing.readSide? s with
  | case1 rest => rfl
  | case2 c rest hc =>
    rw [sideBefore?.eq_2 _ _ hc, isSideLetter_eq]
    cases hside : Side.ofLetter? c with
    | none => rfl
    | some side =>
      simp only [Option.isSome_some, Option.map_some, Side.letter_of_ofLetter? hside]
      rfl
  | case3 s hhyphen hletter => rw [sideBefore?.eq_3 _ hhyphen hletter]; rfl

/-- What a padding or a margin declares that is spelled after its sign. -/
def spacingAfterSign (negative : Bool) : Text → Except Fault (Option (List Declaration))
  | [] => .ok none
  | c :: rest =>
    match SpacingKind.ofLetter? c with
    | none => .ok none
    | some kind =>
      if negative = true ∧ kind = .padding then .ok none
      else
        match sideBefore? rest with
        | none => .ok none
        | some (side, raw) =>
          match spacingValue? raw with
          | none => .ok none
          | some value => do
            let declarations ← perSide kind.property "" side (Spacing.signed negative value)
            .ok (some declarations)

/-- What a padding or a margin declares. -/
def spacing : Text → Except Fault (Option (List Declaration))
  | '-' :: rest => spacingAfterSign true rest
  | token => spacingAfterSign false token

theorem spacingAfterSign_eq (negative : Bool) (s : Text) :
    spacingAfterSign negative s = .ok ((Spacing.read? negative s).map Spacing.declarations) := by
  cases s with
  | nil => rfl
  | cons c rest =>
    rw [spacingAfterSign, Spacing.read?, sideBefore?_eq]
    cases SpacingKind.ofLetter? c with
    | none => rfl
    | some kind =>
      simp only [Option.bind_eq_bind, Option.bind_some]
      by_cases hsign : negative = true ∧ kind = .padding
      · rw [if_pos hsign, if_pos hsign]
        rfl
      rw [if_neg hsign, if_neg hsign]
      rcases Spacing.readSide? rest with _ | ⟨side, raw⟩
      · rfl
      simp only [Option.map_some, Option.bind_some, perSide_eq]
      cases spacingValue? raw <;> rfl

theorem spacing_eq (token : Text) :
    spacing token = .ok ((Spacing.ofToken? token).map Spacing.declarations) := by
  fun_cases Spacing.ofToken? token with
  | case1 rest => exact spacingAfterSign_eq true rest
  | case2 token hsign => rw [spacing.eq_2 _ hsign, spacingAfterSign_eq]

/-! ### Width and height -/

/-- The extent of the whole screen under each property. -/
def screens : List (Text × Text) :=
  [("width", "100vw"), ("height", "100vh")]

/-- A quotient as a percentage. -/
def fraction (raw : Text) : Except Fault (Option Text) :=
  match Text.cut? '/' raw with
  | none => .ok none
  | some (numerator, denominator) =>
    if isDigits 1 4 numerator && isDigits 1 4 denominator then do
      let m ← number denominator
      if m = 0 then .ok none
      else
        let n ← number numerator
        let quotient ← divide n m
        .ok (some (Number.fixed 6 (Number.roundToBits 53 (quotient * mkRat 100 1)) ++ "%"))
    else .ok none

/-- The extent a text stands for. -/
def extentValue (property raw : Text) : Except Fault (Option Text) :=
  match spacingScale.lookup raw with
  | some value => .ok (some value)
  | none =>
    if raw = "screen" then do
      let value ← entry screens property
      .ok (some value)
    else do
      match ← fraction raw with
      | some value => .ok (some value)
      | none => .ok (bracketValue? raw)

/-- What a width or a height declares. -/
def extent : Text → Except Fault (Option (List Declaration))
  | c :: '-' :: raw =>
    match Dimension.ofLetter? c with
    | none => .ok none
    | some d => do
      match ← extentValue d.property raw with
      | none => .ok none
      | some value => .ok (some [⟨d.property, value⟩])
  | _ => .ok none

theorem fraction_eq (raw : Text) : fraction raw = .ok (fraction? raw) := by
  rw [fraction, fraction?]
  rcases Text.cut? '/' raw with _ | ⟨numerator, denominator⟩
  · rfl
  simp only [Option.bind_eq_bind, Option.bind_some]
  by_cases hdigits : (isDigits 1 4 numerator && isDigits 1 4 denominator) = true
  · rw [if_pos hdigits, if_pos hdigits]
    obtain ⟨hn, hm⟩ := Bool.and_eq_true_iff.mp hdigits
    rw [number_ok (by decide) hm, number_ok (by decide) hn]
    show (if _ then _ else _) = _
    by_cases hzero : Text.digitsValue denominator = 0
    · rw [if_pos hzero, if_pos hzero]
    · rw [if_neg hzero, if_neg hzero]
      show (do let quotient ← divide _ _; _) = _
      rw [divide_ok (digitsValue_lt hn) hzero]
      rfl
  · rw [if_neg hdigits, if_neg hdigits]

theorem lookup_screens (d : Dimension) : screens.lookup d.property = some d.screen := by
  cases d <;> rfl

theorem extentValue_eq (d : Dimension) (raw : Text) :
    extentValue d.property raw = .ok (d.value? raw) := by
  rw [extentValue, Dimension.value?, fraction_eq, entry_ok (lookup_screens d)]
  cases spacingScale.lookup raw with
  | some value => rfl
  | none =>
    by_cases hscreen : raw = "screen"
    · rw [if_pos hscreen, if_pos hscreen]
      rfl
    · rw [if_neg hscreen, if_neg hscreen]
      cases fraction? raw <;> rfl

theorem extent_eq (token : Text) :
    extent token = .ok ((Extent.ofToken? token).map Extent.declarations) := by
  fun_cases Extent.ofToken? token with
  | case1 c raw =>
    rw [extent]
    cases Dimension.ofLetter? c with
    | none => rfl
    | some d =>
      simp only [extentValue_eq, Option.bind_eq_bind, Option.bind_some]
      cases d.value? raw <;> rfl
  | case2 token hshape => rw [extent.eq_2 _ hshape]; rfl

/-! ### Borders -/

/-- The corners under each keyword. -/
def cornerNames : List (Text × List Text) :=
  [("tl", ["top-left"]), ("tr", ["top-right"]), ("bl", ["bottom-left"]), ("br", ["bottom-right"]),
   ("t", ["top-left", "top-right"]), ("r", ["top-right", "bottom-right"]),
   ("b", ["bottom-left", "bottom-right"]), ("l", ["top-left", "bottom-left"])]

/-- Whether a text is a keyword for corners. -/
def isCorner (part : Text) : Bool :=
  (cornerNames.lookup part).isSome

/-- The size and the keyword for corners that are named by the parts after `rounded`; no keyword
stands for all corners. -/
def radiusTexts? (parts : List Text) : Option (Text × Text) :=
  if 2 < parts.length ∨ parts.contains "DEFAULT" then none
  else
    match parts with
    | [part] => if isCorner part then some ("DEFAULT", part) else some (part, "")
    | [size, part] => if isCorner part then some (size, part) else none
    | _ => some ("DEFAULT", "")

/-- What a radius declares. -/
def radius (token : Text) : Except Fault (Option (List Declaration)) :=
  match (Radius.parts? token).bind radiusTexts? with
  | none => .ok none
  | some (size, corner) =>
    match radiusScale.lookup size with
    | none => .ok none
    | some value =>
      if corner = [] then .ok (some [⟨"border-radius", value⟩])
      else do
        let names ← entry cornerNames corner
        .ok (some (names.map fun name => ⟨"border-" ++ name ++ "-radius", value⟩))

/-- The letter of a side after a hyphen, or nothing, and what follows. -/
def sideAfter (s : Text) : Text × Text :=
  match s with
  | ['-', c] => if isSideLetter c then ([c], []) else ([], s)
  | '-' :: c :: '-' :: rest => if isSideLetter c then ([c], '-' :: rest) else ([], s)
  | _ => ([], s)

/-- What a border width declares. -/
def borderWidth (token : Text) : Except Fault (Option (List Declaration)) :=
  match Text.consume? "border" token with
  | none => .ok none
  | some rest =>
    let (side, rest) := sideAfter rest
    match BorderWidth.readWidth? rest with
    | none => .ok none
    | some value => do
      let widths ← perSide "border" "-width" side value
      .ok (some (widths ++ [⟨"border-style", "solid"⟩]))

/-- A table that holds what a reader reads, and nothing else, is read by looking up. -/
theorem lookup_eq_of_reads {β : Type} {entries : List (Text × β)} (read : Text → Option β)
    (hentries : ∀ e ∈ entries, read e.1 = some e.2)
    (hread : ∀ key value, read key = some value → key ∈ entries.map Prod.fst) (key : Text) :
    entries.lookup key = read key := by
  cases hlookup : entries.lookup key with
  | some value => exact (hentries _ (mem_of_lookup hlookup)).symm
  | none =>
    symm
    refine Option.eq_none_iff_forall_ne_some.mpr fun value hvalue => ?_
    obtain ⟨e, he, rfl⟩ := List.mem_map.mp (hread key value hvalue)
    exact absurd (List.lookup_eq_none_iff.mp hlookup e he) (by simp)

theorem mem_cornerNames {part : Text} {corners : Corners} (h : Corners.ofText? part = some corners) :
    part ∈ cornerNames.map Prod.fst := by
  rw [Corners.ofText?.eq_def] at h
  split at h
  case h_5 c =>
    obtain ⟨e, he, -⟩ := Option.map_eq_some_iff.mp h
    rw [Edge.ofLetter?.eq_def] at he
    split at he
    case h_5 => exact absurd he (by simp)
    all_goals decide +kernel
  case h_6 => exact absurd h (by simp)
  all_goals decide +kernel

theorem lookup_cornerNames (part : Text) :
    cornerNames.lookup part = (Corners.ofText? part).map (·.toList.map Corner.name) := by
  have hentries : ∀ e ∈ cornerNames,
      (Corners.ofText? e.1).map (·.toList.map Corner.name) = some e.2 := by decide +kernel
  refine lookup_eq_of_reads (fun part => (Corners.ofText? part).map (·.toList.map Corner.name))
    hentries (fun key value h => ?_) part
  obtain ⟨corners, hcorners, -⟩ := Option.map_eq_some_iff.mp h
  exact mem_cornerNames hcorners

theorem isCorner_eq (part : Text) : isCorner part = (Corners.ofText? part).isSome := by
  rw [isCorner, lookup_cornerNames, Option.isSome_map]

/-- The corners that are read are those of the keyword. -/
theorem radiusTexts?_eq (parts : List Text) :
    Radius.readParts? parts = (radiusTexts? parts).map fun (size, corner) =>
      (size, Corners.ofText? corner) := by
  by_cases hdefault : parts.contains "DEFAULT" = true
  · rw [Radius.readParts?.eq_def, if_pos hdefault, radiusTexts?.eq_def, if_pos (.inr hdefault)]
    rfl
  rw [Radius.readParts?.eq_def, if_neg hdefault, radiusTexts?.eq_def]
  rcases parts with _ | ⟨first, _ | ⟨second, _ | ⟨third, rest⟩⟩⟩
  · rfl
  · rw [if_neg (by simpa using hdefault)]
    dsimp only
    rw [isCorner_eq]
    cases hcorners : Corners.ofText? first with
    | none => rfl
    | some corners => simp [hcorners]
  · rw [if_neg (by simpa using hdefault)]
    dsimp only
    rw [isCorner_eq]
    cases hcorners : Corners.ofText? second with
    | none => rfl
    | some corners => simp [hcorners]
  · simp

/-- What is named for corners is a keyword for them, or empty. -/
theorem isCorner_of_radiusTexts? {parts : List Text} {size corner : Text}
    (h : radiusTexts? parts = some (size, corner)) (hne : corner ≠ []) : isCorner corner = true := by
  obtain ⟨-, h⟩ := Option.ite_none_left_eq_some.mp h
  split at h
  · split at h
    · obtain ⟨-, rfl⟩ := Prod.mk.inj (Option.some.inj h)
      assumption
    · exact absurd (Prod.mk.inj (Option.some.inj h)).2.symm hne
  · obtain ⟨hcorner, h⟩ := Option.ite_none_right_eq_some.mp h
    obtain ⟨-, rfl⟩ := Prod.mk.inj (Option.some.inj h)
    exact hcorner
  · exact absurd (Prod.mk.inj (Option.some.inj h)).2.symm hne

theorem radius_eq (token : Text) :
    radius token = .ok ((Radius.ofToken? token).map Radius.declarations) := by
  rw [radius, Radius.ofToken?]
  cases Radius.parts? token with
  | none => rfl
  | some parts =>
    simp only [Option.bind_eq_bind, Option.bind_some, radiusTexts?_eq]
    cases htexts : radiusTexts? parts with
    | none => rfl
    | some texts =>
      obtain ⟨size, corner⟩ := texts
      simp only [Option.map_some, Option.bind_some]
      cases radiusScale.lookup size with
      | none => rfl
      | some value =>
        dsimp only
        by_cases hcorner : corner = []
        · rw [if_pos hcorner, hcorner]
          rfl
        · have hkeyword := isCorner_of_radiusTexts? htexts hcorner
          rw [isCorner_eq] at hkeyword
          obtain ⟨corners, hcorners⟩ := Option.isSome_iff_exists.mp hkeyword
          have hlookup := lookup_cornerNames corner
          rw [hcorners] at hlookup
          rw [if_neg hcorner, entry_ok hlookup, hcorners]
          exact congrArg (fun ds => Except.ok (some ds)) (List.map_map ..)

theorem sideAfter_eq (s : Text) :
    sideAfter s = ((BorderWidth.readSide s).1.letter, (BorderWidth.readSide s).2) := by
  fun_cases BorderWidth.readSide s with
  | case1 c side h =>
    rw [sideAfter, isSideLetter_eq, h, Side.letter_of_ofLetter? h]
    rfl
  | case2 c h =>
    rw [sideAfter, isSideLetter_eq, h]
    rfl
  | case3 c rest side h =>
    rw [sideAfter, isSideLetter_eq, h, Side.letter_of_ofLetter? h]
    rfl
  | case4 c rest h =>
    rw [sideAfter, isSideLetter_eq, h]
    rfl
  | case5 s hlast hbefore =>
    rw [sideAfter.eq_3 _ hlast hbefore]
    rfl

theorem borderWidth_eq (token : Text) :
    borderWidth token = .ok ((BorderWidth.ofToken? token).map BorderWidth.declarations) := by
  rw [borderWidth, BorderWidth.ofToken?]
  cases Text.consume? "border" token with
  | none => rfl
  | some rest =>
    simp only [sideAfter_eq, Option.bind_eq_bind, Option.bind_some, perSide_eq]
    cases BorderWidth.readWidth? (BorderWidth.readSide rest).2 <;> rfl

/-! ### All families -/

/-- What a token of one family declares. -/
def family (token : Text) : Family → Except Fault (Option (List Declaration))
  | .color => color token
  | .fontSize => .ok ((FontSize.ofToken? token).map FontSize.declarations)
  | .spacing => spacing token
  | .extent => extent token
  | .maxWidth => .ok ((MaxWidth.ofToken? token).map MaxWidth.declarations)
  | .radius => radius token
  | .borderWidth => borderWidth token
  | .gap => .ok ((Gap.ofToken? token).map Gap.declarations)
  | .spaceBetween => .ok ((SpaceBetween.ofToken? token).map SpaceBetween.declarations)
  | .literal => .ok ((Literal.ofToken? token).map Literal.declarations)

theorem family_eq (token : Text) (f : Family) :
    family token f = .ok ((f.read? token).map Utility.declarations) := by
  have hmap {α : Type} (ofToken : Option α) (wrap : α → Utility) :
      (ofToken.map wrap).map Utility.declarations = ofToken.map (Utility.declarations ∘ wrap) :=
    Option.map_map ..
  cases f <;> rw [family, Family.read?, hmap]
  case color => exact color_eq token
  case spacing => exact spacing_eq token
  case extent => exact extent_eq token
  case radius => exact radius_eq token
  case borderWidth => exact borderWidth_eq token
  -- the other families have no step that may fail
  all_goals rfl

end Checked

end UtilityCss

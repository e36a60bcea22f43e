/-
The characters that values are written with.

* `Json.isWrittenChar` — the visible ASCII characters, the blank and the line feed;
* `Json.forall_mem_quote`, `Json.forall_mem_scalar` — a scalar is written without line feeds;
* `Json.forall_mem_bracketed` — parts between brackets are written with the characters of the
  parts and of the lines between them;
* `Json.forall_mem_indentedAt` — every value is written with these characters only.
-/
import UtilityCss.Proofs.Numeral
import UtilityCss.Proofs.JsonString

namespace UtilityCss

namespace Number

theorem Decimal.isDigit_of_mem_shortest {q : Rat} {c : CodePoint}
    (h : c ∈ (Binary64.shortest q).digits) : c.isDigit = true := by
  rw [Binary64.shortest] at h
  cases hfound : (List.range' 1 17).findSome? (Binary64.readsBack? q) with
  | none =>
    rw [hfound] at h
    exact Decimal.isDigit_of_mem_ofScaled h
  | some d =>
    rw [hfound] at h
    obtain ⟨count, -, hd⟩ := List.exists_of_findSome?_eq_some hfound
    obtain ⟨n, -, rfl⟩ := Option.map_eq_some_iff.mp hd
    exact Decimal.isDigit_of_mem_ofScaled h

theorem Binary64.forall_mem_display (x : Binary64) : ∀ c ∈ x.display, isFlatChar c = true :=
  forall_mem_render (Text.forall_mem_ofString rfl) (fun _ _ => Decimal.isDigit_of_mem_shortest) x

end Number

namespace Json

/-! ### Scalars -/

theorem isVisible_of_isValueChar {c : CodePoint} (h : isValueChar c = true) :
    isVisible c = true := by
  have hrange : 0x20 ≤ c.toNat ∧ c.toNat ≤ 0x7E := by
    simp only [isValueChar, Bool.or_eq_true, decide_eq_true_eq] at h
    rcases h with (h | h) | rfl
    · rw [CodePoint.isAlphanum_iff, CodePoint.isAlpha_iff, CodePoint.isLower_iff,
        CodePoint.isDigit_iff] at h
      omega
    · have hpunctuation : ∀ d ∈ bracketPunctuation, 0x20 ≤ d.toNat ∧ d.toNat ≤ 0x7E := by decide
      exact hpunctuation c (List.contains_iff_mem.mp h)
    · decide
  simpa [isVisible] using hrange

theorem isSurrogate_of_isVisible {c : CodePoint} (h : isVisible c = true) :
    c.isSurrogate = false := by
  have hrange : 0x20 ≤ c.toNat ∧ c.toNat ≤ 0x7E := by simpa [isVisible] using h
  cases c with
  | char c => rfl
  | surrogate place =>
    have hnat : (CodePoint.surrogate place).toNat = 0xD800 + place.val := rfl
    omega

/-- Visible characters are no surrogates. -/
theorem isJoined_of_forall_isVisible {s : Text} (h : ∀ c ∈ s, isVisible c = true) :
    s.IsJoined :=
  Text.isJoined_of_forall fun c hc => isSurrogate_of_isVisible (h c hc)

theorem isVisible_hexDigit {n : Nat} (h : n < 16) : isVisible (hexDigit n) = true := by
  revert n
  decide

theorem forall_mem_unitEscape {n : Nat} (h : n < 0x10000) :
    ∀ c ∈ unitEscape n, isVisible c = true := by
  rw [unitEscape, hex_four h]
  have hdigit (m : Nat) : isVisible (hexDigit (m % 16)) = true :=
    isVisible_hexDigit (Nat.mod_lt _ (by decide))
  have hfirst : isVisible (hexDigit (n / 16 / 16 / 16)) = true := isVisible_hexDigit (by omega)
  simp only [List.forall_mem_cons]
  exact ⟨rfl, rfl, hfirst, hdigit _, hdigit _, hdigit _, by simp⟩

theorem forall_mem_escapeChar (c : CodePoint) : ∀ d ∈ escapeChar c, isVisible d = true := by
  have hwritten := writtenAs c
  generalize escapeChar c = written, piecesOf c = ps at hwritten
  cases hwritten with
  | short _ he _ => exact List.forall_mem_cons.mpr ⟨rfl, List.forall_mem_singleton.mpr he⟩
  | plain _ _ h => exact List.forall_mem_singleton.mpr h
  | unit h => exact forall_mem_unitEscape h
  | pair h =>
    have hc := c.toNat_lt
    have hhigh : highHalf c < 0x10000 := by unfold highHalf; omega
    have hlow : lowHalf c < 0x10000 := by unfold lowHalf; omega
    exact List.forall_mem_append.mpr ⟨forall_mem_unitEscape hhigh, forall_mem_unitEscape hlow⟩

theorem forall_mem_quote (s : Text) : ∀ c ∈ quote s, isVisible c = true := by
  refine List.forall_mem_cons.mpr ⟨rfl, List.forall_mem_append.mpr ⟨fun c hc => ?_, ?_⟩⟩
  · obtain ⟨d, -, hd⟩ := List.mem_flatMap.mp hc
    exact forall_mem_escapeChar d c hd
  · exact Text.forall_mem_ofString rfl

theorem forall_mem_scalar (s : Scalar) : ∀ c ∈ s.written, isVisible c = true := by
  cases s with
  | null => exact Text.forall_mem_ofString rfl
  | bool b => cases b <;> exact Text.forall_mem_ofString rfl
  | int n =>
    exact fun c hc => isVisible_of_isValueChar
      (isValueChar_of_isFlatChar (forall_mem_integer n c hc))
  | float x =>
    cases x with
    | nan => exact Text.forall_mem_ofString rfl
    | infinite negative => cases negative <;> exact Text.forall_mem_ofString rfl
    | finite negative q =>
      exact fun c hc => isVisible_of_isValueChar (isValueChar_of_isFlatChar
        (Number.Binary64.forall_mem_display (.finite negative q) c hc))
  | text t => exact forall_mem_quote t

/-! ### Values on several lines -/

/-- Whether a character stands in written values: a visible ASCII character, the blank or the
line feed. -/
def isWrittenChar (c : CodePoint) : Bool :=
  isVisible c || c = '\n'

theorem isWrittenChar_of_isVisible {c : CodePoint} (h : isVisible c = true) :
    isWrittenChar c = true := by
  rw [isWrittenChar, h, Bool.true_or]

theorem isSurrogate_of_isWrittenChar {c : CodePoint} (h : isWrittenChar c = true) :
    c.isSurrogate = false := by
  rw [isWrittenChar, Bool.or_eq_true, decide_eq_true_eq] at h
  rcases h with h | rfl
  · exact isSurrogate_of_isVisible h
  · rfl

theorem forall_mem_newline (depth : Nat) : ∀ c ∈ newline depth, isWrittenChar c = true := by
  refine List.forall_mem_cons.mpr ⟨rfl, fun c hc => ?_⟩
  rw [List.eq_of_mem_replicate hc]
  rfl

theorem forall_mem_bracketed {depth : Nat} {opening closing : CodePoint} {parts : List Text}
    (hopening : isWrittenChar opening = true) (hclosing : isWrittenChar closing = true)
    (hparts : ∀ part ∈ parts, ∀ c ∈ part, isWrittenChar c = true) :
    ∀ c ∈ bracketed depth opening closing parts, isWrittenChar c = true := by
  rw [bracketed.eq_def]
  split
  · exact List.forall_mem_cons.mpr ⟨hopening, List.forall_mem_singleton.mpr hclosing⟩
  · have hseparator : ∀ c ∈ Text.ofString "," ++ newline (depth + 1), isWrittenChar c = true :=
      List.forall_mem_append.mpr ⟨Text.forall_mem_ofString rfl, forall_mem_newline _⟩
    have hjoined : ∀ c ∈ Text.join ("," ++ newline (depth + 1)) parts, isWrittenChar c = true := by
      intro c hc
      rcases Text.mem_of_mem_join hc with hc | ⟨part, hpart, hc⟩
      · exact hseparator c hc
      · exact hparts part hpart c hc
    refine List.forall_mem_cons.mpr ⟨hopening, ?_⟩
    refine List.forall_mem_append.mpr ⟨List.forall_mem_append.mpr ⟨?_, forall_mem_newline _⟩,
      List.forall_mem_singleton.mpr hclosing⟩
    exact List.forall_mem_append.mpr ⟨forall_mem_newline _, hjoined⟩

mutual

/-- Every value is written with visible ASCII characters, blanks and line feeds only. -/
theorem forall_mem_indentedAt (depth : Nat) (json : Json) :
    ∀ c ∈ indentedAt depth json, isWrittenChar c = true :=
  match json with
  | .scalar s => fun c hc => isWrittenChar_of_isVisible (forall_mem_scalar s c hc)
  | .array items => forall_mem_bracketed rfl rfl (forall_mem_indentedItems (depth + 1) items)
  | .object fields => forall_mem_bracketed rfl rfl (forall_mem_indentedFields (depth + 1) fields)

theorem forall_mem_indentedItems (depth : Nat) (items : List Json) :
    ∀ part ∈ indentedItems depth items, ∀ c ∈ part, isWrittenChar c = true :=
  match items with
  | [] => by simp [indentedItems]
  | item :: items =>
    List.forall_mem_cons.mpr
      ⟨forall_mem_indentedAt depth item, forall_mem_indentedItems depth items⟩

theorem forall_mem_indentedFields (depth : Nat) (fields : List (Text × Json)) :
    ∀ part ∈ indentedFields depth fields, ∀ c ∈ part, isWrittenChar c = true :=
  match fields with
  | [] => by simp [indentedFields]
  | (name, item) :: fields => by
    have hcolon : ∀ c ∈ Text.ofString ": ", isWrittenChar c = true := Text.forall_mem_ofString rfl
    have hname : ∀ c ∈ quote name, isWrittenChar c = true := fun c hc =>
      isWrittenChar_of_isVisible (forall_mem_quote name c hc)
    exact List.forall_mem_cons.mpr
      ⟨List.forall_mem_append.mpr ⟨List.forall_mem_append.mpr ⟨hname, hcolon⟩,
        forall_mem_indentedAt depth item⟩, forall_mem_indentedFields depth fields⟩

end

/-- Carriage returns are written as escapes. -/
theorem ne_return_of_mem_indented {json : Json} {c : CodePoint} (hc : c ∈ json.indented) :
    c ≠ '\r' := by
  rintro rfl
  exact absurd (forall_mem_indentedAt 0 json _ hc) (by decide)

end Json

end UtilityCss

/-
What the reader of JSON returns.

Every value that is read from a text without surrogates is read back from its written form, unless
there is a fractional number in it: a pair of surrogates has been joined, the limits have been
kept, and each object has each of its names once.

* `Json.FloatFree`, `Json.IsReadable` — values without fractional numbers, and values of texts;
* `Json.pieces_sound`, `Json.isJoined_assemble` — a string is joined;
* `Json.integer_sound`, `Json.atom?_sound` — a numeral that is read is not too long;
* `Json.FieldsSound` — the fields that have been read so far, a name at most once;
* `Json.value_sound`, `Json.items_sound`, `Json.fields_sound` — what is left of a text is an end of
  it, and the part that has been read is sound;
* `Json.isReadable_iff` — the values without fractional numbers that are read are the restorable
  ones.
-/
import Mathlib.Data.List.TakeWhile
import UtilityCss.Proofs.JsonAscii
import UtilityCss.Proofs.JsonRoundTrip

namespace UtilityCss

namespace Json

/-! ### Values of texts -/

/-- A value without fractional numbers. -/
inductive FloatFree : Json → Prop
  | scalar {s : Scalar} (h : ∀ x, s ≠ .float x) : FloatFree (.scalar s)
  | array {items : List Json} (hitems : ∀ item ∈ items, FloatFree item) : FloatFree (.array items)
  | object {fields : List (Text × Json)} (hitems : ∀ f ∈ fields, FloatFree f.2) :
      FloatFree (.object fields)

/-- The value of some text without surrogates. -/
def IsReadable (json : Json) : Prop :=
  ∃ text, IsEncodable text ∧ parse text = .ok json

theorem Restorable.floatFree {depth : Nat} {json : Json} (h : Restorable depth json) :
    json.FloatFree := by
  induction h with
  | scalar h =>
    refine .scalar ?_
    rintro x rfl
    exact h
  | array _ ih => exact .array ih
  | object _ _ _ ih => exact .object ih

end Json

/-! ### Steps and ends -/

section Steps

variable {ε α β : Type} {x : Except ε α} {b : β}

theorem map_eq_ok_iff {f : α → β} : x.map f = .ok b ↔ ∃ a, x = .ok a ∧ f a = b := by
  cases x <;> simp [Except.map]

theorem bind_eq_ok_iff {f : α → Except ε β} :
    (x >>= f) = .ok b ↔ ∃ a, x = .ok a ∧ f a = .ok b := by
  cases x <;> simp [bind, Except.bind]

end Steps

/-- An end of a text that can be encoded can be encoded. -/
theorem IsEncodable.suffix {s rest : Text} (hs : IsEncodable s) (h : rest <:+ s) :
    IsEncodable rest :=
  fun c hc => hs c (h.subset hc)

namespace Json

theorem skipSpace_suffix (s : Text) : skipSpace s <:+ s :=
  List.dropWhile_suffix _

/-! ### Strings -/

/-- A piece that a text without surrogates can give: a character, or a unit of four digits. -/
def Piece.IsSound : Piece → Prop
  | .char c => c.isSurrogate = false
  | .unit n => n < 0x10000

theorem hexDigit?_lt {c : CodePoint} {n : Nat} (h : Text.hexDigit? c = some n) : n < 16 := by
  simp only [Text.hexDigit?] at h
  split at h
  · obtain rfl := Option.some.inj h; omega
  split at h
  · obtain rfl := Option.some.inj h; omega
  split at h
  · obtain rfl := Option.some.inj h; omega
  · exact absurd h (by simp)

theorem unit?_lt {a b c d : CodePoint} {n : Nat} (h : unit? a b c d = some n) : n < 0x10000 := by
  simp only [unit?, Option.bind_eq_bind, Option.bind_eq_some_iff, Option.some.injEq] at h
  obtain ⟨a, ha, b, hb, c, hc, d, hd, rfl⟩ := h
  have := hexDigit?_lt ha
  have := hexDigit?_lt hb
  have := hexDigit?_lt hc
  have := hexDigit?_lt hd
  omega

theorem isSurrogate_shortEscape? {e c : CodePoint} (h : shortEscape? e = some c) :
    c.isSurrogate = false := by
  rw [shortEscape?.eq_def] at h
  split at h
  all_goals first
    | (obtain rfl := Option.some.inj h; rfl)
    | exact absurd h (by simp)

/-- One piece more keeps what is known of the pieces after it. -/
theorem cons_piece_sound {x : Except Failure (List Piece × Text)} {p : Piece} {ps : List Piece}
    {s tail rest : Text} (hp : p.IsSound) (htail : tail <:+ s)
    (hx : ∀ {ps : List Piece} {rest : Text}, x = .ok (ps, rest) →
      rest <:+ tail ∧ ∀ q ∈ ps, q.IsSound)
    (h : (x.map fun (ps, s) => (p :: ps, s)) = .ok (ps, rest)) :
    rest <:+ s ∧ ∀ q ∈ ps, q.IsSound := by
  obtain ⟨⟨qs, after⟩, hok, heq⟩ := map_eq_ok_iff.mp h
  obtain ⟨rfl, rfl⟩ := Prod.mk.inj heq
  obtain ⟨hsuffix, hqs⟩ := hx hok
  exact ⟨hsuffix.trans htail, List.forall_mem_cons.mpr ⟨hp, hqs⟩⟩

/-- The pieces before a closing quote are sound, and an end of the text comes after it. -/
theorem pieces_sound {start s rest : Text} {ps : List Piece} (hs : IsEncodable s)
    (h : pieces start s = .ok (ps, rest)) : rest <:+ s ∧ ∀ p ∈ ps, p.IsSound := by
  fun_induction pieces start s generalizing ps rest with
  | case2 tail =>
    obtain ⟨rfl, rfl⟩ := Prod.mk.inj (Except.ok.inj h)
    exact ⟨List.suffix_cons _ _, List.forall_mem_nil _⟩
  | case6 a b c d tail code hcode _ ih =>
    -- a unit of four digits
    have htail : tail <:+ .char '\\' :: .char 'u' :: a :: b :: c :: d :: tail :=
      ⟨[.char '\\', .char 'u', a, b, c, d], rfl⟩
    exact cons_piece_sound (p := .unit code) (unit?_lt hcode) htail (ih (hs.suffix htail)) h
  | case9 e tail _ c hc ih =>
    -- a backslash and a letter
    have htail : tail <:+ .char '\\' :: e :: tail := ⟨[.char '\\', e], rfl⟩
    exact cons_piece_sound (p := .char c) (isSurrogate_shortEscape? hc) htail
      (ih (hs.suffix htail)) h
  | case11 c tail _ _ _ _ _ ih =>
    -- a character that stands for itself
    have htail : tail <:+ c :: tail := List.suffix_cons _ _
    exact cons_piece_sound (p := .char c) (hs c List.mem_cons_self) htail
      (ih (hs.suffix htail)) h
  -- all other ends are failures
  | _ => exact absurd h (by simp)

theorem toNat_pairPoint {high low : Nat} (h : (isHighSurrogate high && isLowSurrogate low) = true) :
    0x10000 ≤ (pairPoint high low).toNat := by
  simp only [isHighSurrogate, isLowSurrogate, Bool.and_eq_true, decide_eq_true_eq] at h
  rw [pairPoint, CodePoint.toNat_ofNat (by omega)]
  omega

/-- The first code point of a unit and what follows it is the second half of a pair only if the
unit is. -/
theorem assemble_unit_eq_cons {m : Nat} (hm : m < 0x10000) (ps : List Piece) :
    ∃ c tail, assemble (.unit m :: ps) = c :: tail ∧
      (isLowSurrogate c.toNat = true → c.toNat = m) := by
  have hunit : (CodePoint.ofNat m).toNat = m := CodePoint.toNat_ofNat (by omega)
  rcases ps with _ | ⟨c | n, ps⟩
  · exact ⟨_, _, rfl, fun _ => hunit⟩
  · exact ⟨_, _, rfl, fun _ => hunit⟩
  · rw [assemble]
    split
    · rename_i hpair
      have hpoint := toNat_pairPoint hpair
      refine ⟨_, _, rfl, fun hlow => ?_⟩
      rw [isLowSurrogate, Bool.and_eq_true, decide_eq_true_eq, decide_eq_true_eq] at hlow
      omega
    · exact ⟨_, _, rfl, fun _ => hunit⟩

/-- Sound pieces are put together to a joined text. -/
theorem isJoined_assemble {ps : List Piece} (h : ∀ p ∈ ps, p.IsSound) : (assemble ps).IsJoined := by
  -- what comes after a code point that is no first half does not matter
  have hcons {c : CodePoint} {s : Text} (hc : isHighSurrogate c.toNat = false)
      (hs : s.IsJoined) : Text.IsJoined (c :: s) :=
    List.isChain_cons.mpr ⟨fun b _ => by rw [hc, Bool.false_and], hs⟩
  fun_induction assemble ps with
  | case1 => exact List.isChain_nil
  | case2 c ps ih =>
    obtain ⟨hc, hps⟩ := List.forall_mem_cons.mp h
    exact hcons (isHighSurrogate_of_not_isSurrogate hc) (ih hps)
  | case3 n => exact List.isChain_singleton _
  | case4 n c ps ih =>
    -- a unit before a character, which is no second half
    obtain ⟨-, hps⟩ := List.forall_mem_cons.mp h
    obtain ⟨hc, hps⟩ := List.forall_mem_cons.mp hps
    refine List.isChain_cons_cons.mpr ⟨?_, hcons (isHighSurrogate_of_not_isSurrogate hc) (ih hps)⟩
    rw [isLowSurrogate_of_not_isSurrogate hc, Bool.and_false]
  | case5 n m ps hpair ih =>
    -- a pair, which is a code point beyond the surrogates
    obtain ⟨-, hps⟩ := List.forall_mem_cons.mp h
    obtain ⟨-, hps⟩ := List.forall_mem_cons.mp hps
    refine hcons ?_ (ih hps)
    have hpoint := toNat_pairPoint hpair
    rw [isHighSurrogate, Bool.and_eq_false_iff]
    exact .inr (decide_eq_false (by omega))
  | case6 n m ps hpair ih =>
    -- two units that are no pair
    obtain ⟨hn, hps⟩ := List.forall_mem_cons.mp h
    have hm : m < 0x10000 := hps (.unit m) List.mem_cons_self
    have hunit : (CodePoint.ofNat n).toNat = n :=
      CodePoint.toNat_ofNat (Nat.lt_trans hn (by decide))
    obtain ⟨c, tail, heq, hlow⟩ := assemble_unit_eq_cons hm ps
    have ih := ih hps
    rw [heq] at ih ⊢
    refine List.isChain_cons_cons.mpr ⟨?_, ih⟩
    rw [hunit, Bool.and_eq_false_iff]
    cases hc : isLowSurrogate c.toNat with
    | false => exact .inr rfl
    | true =>
      rw [hlow hc] at hc
      rw [hc, Bool.and_true, Bool.not_eq_true] at hpair
      exact .inl hpair

theorem string_sound {s rest t : Text} (hs : IsEncodable s) (h : string s = .ok (t, rest)) :
    rest <:+ s ∧ t.IsJoined := by
  obtain ⟨⟨ps, after⟩, hok, heq⟩ := map_eq_ok_iff.mp h
  obtain ⟨rfl, rfl⟩ := Prod.mk.inj heq
  obtain ⟨hsuffix, hps⟩ := pieces_sound hs hok
  exact ⟨hsuffix, isJoined_assemble hps⟩

/-! ### Numbers and names -/

theorem wholeDigits?_sound {s digits rest : Text} (h : wholeDigits? s = some (digits, rest)) :
    rest <:+ s ∧ digits ≠ [] ∧ ∀ c ∈ digits, c.isDigit = true := by
  rw [wholeDigits?.eq_def] at h
  split at h
  · obtain ⟨rfl, rfl⟩ := Prod.mk.inj (Option.some.inj h)
    exact ⟨List.suffix_cons _ _, List.cons_ne_nil _ _, List.forall_mem_singleton.mpr rfl⟩
  · rename_i c tail _
    split at h
    · rename_i hc
      rw [List.span_eq_takeWhile_dropWhile] at h
      obtain ⟨rfl, rfl⟩ := Prod.mk.inj (Option.some.inj h)
      refine ⟨List.dropWhile_suffix _, ?_, fun d hd => List.mem_takeWhile_imp hd⟩
      rw [List.takeWhile_cons_of_pos hc]
      exact List.cons_ne_nil _ _
    · exact absurd h (by simp)
  · exact absurd h (by simp)

theorem fractionDigits_suffix (s : Text) : (fractionDigits s).2 <:+ s := by
  rw [fractionDigits.eq_def]
  split
  · simp only [List.span_eq_takeWhile_dropWhile]
    split
    · exact List.suffix_rfl
    · exact (List.dropWhile_suffix _).trans (List.suffix_cons _ _)
  · exact List.suffix_rfl

theorem sign_suffix (s : Text) : (sign s).2 <:+ s := by
  rw [sign.eq_def]
  split
  · exact List.suffix_cons _ _
  · exact List.suffix_cons _ _
  · exact List.suffix_rfl

theorem exponent?_suffix (s : Text) : (exponent? s).2 <:+ s := by
  rw [exponent?.eq_def]
  split
  · rename_i c tail
    simp only [List.span_eq_takeWhile_dropWhile]
    split
    · split
      · exact List.suffix_rfl
      · exact (List.dropWhile_suffix _).trans ((sign_suffix tail).trans (List.suffix_cons _ _))
    · exact List.suffix_rfl
  · exact List.suffix_rfl

/-- An integer that is read is written with no more digits than it is read from. -/
theorem integer_sound {negative : Bool} {digits : Text} {a : Scalar} (hne : digits ≠ [])
    (hdigits : ∀ c ∈ digits, c.isDigit = true) (h : integer negative digits = .ok a) :
    a.Restorable := by
  rw [integer] at h
  split at h
  · exact absurd h (by simp)
  · rename_i hlimit
    obtain rfl := Except.ok.inj h
    have hvalue := length_decimal_le (List.length_pos_iff.mpr hne) (digitsValue_lt_length hdigits)
    have habs : (if negative then -(Text.digitsValue digits : Int)
        else Text.digitsValue digits).natAbs = Text.digitsValue digits := by
      split <;> simp
    show (Text.decimal (Int.natAbs _)).length ≤ maxDigits
    rw [habs]
    exact hvalue.trans (Nat.le_of_not_lt hlimit)

/-- A scalar that is read back unless it is a fractional number. -/
def ScalarSound (a : Scalar) : Prop :=
  (∀ x, a ≠ .float x) → a.Restorable

theorem magnitude?_sound {negative : Bool} {s rest : Text} {x : Except Limit Scalar}
    (h : magnitude? negative s = some (x, rest)) :
    rest <:+ s ∧ ∀ a, x = .ok a → ScalarSound a := by
  simp only [magnitude?, Option.bind_eq_bind, Option.bind_eq_some_iff] at h
  obtain ⟨⟨whole, afterWhole⟩, hwhole, h⟩ := h
  obtain ⟨hsuffix, hne, hdigits⟩ := wholeDigits?_sound hwhole
  -- fraction and exponent may be empty; they are ends of what comes before in any case
  have hend : (exponent? (fractionDigits afterWhole).2).2 <:+ s :=
    (exponent?_suffix _).trans ((fractionDigits_suffix _).trans hsuffix)
  split at h
  · obtain ⟨rfl, rfl⟩ := Prod.mk.inj (Option.some.inj h)
    exact ⟨hend, fun a ha _ => integer_sound hne hdigits ha⟩
  · obtain ⟨rfl, rfl⟩ := Prod.mk.inj (Option.some.inj h)
    refine ⟨hend, fun a ha hfloat => ?_⟩
    obtain rfl := Except.ok.inj ha
    exact absurd rfl (hfloat _)

theorem number?_sound {s rest : Text} {x : Except Limit Scalar}
    (h : number? s = some (x, rest)) : rest <:+ s ∧ ∀ a, x = .ok a → ScalarSound a := by
  rw [number?.eq_def] at h
  split at h
  · obtain ⟨hsuffix, hx⟩ := magnitude?_sound h
    exact ⟨hsuffix.trans (List.suffix_cons _ _), hx⟩
  · exact magnitude?_sound h

theorem scalarSound_of_mem_names {e : Text × Scalar} (h : e ∈ names) : ScalarSound e.2 := by
  simp only [names, List.mem_cons, List.not_mem_nil, or_false] at h
  rcases h with rfl | rfl | rfl | rfl | rfl | rfl
  · exact fun _ => trivial
  · exact fun _ => trivial
  · exact fun _ => trivial
  · exact fun hfloat => absurd rfl (hfloat _)
  · exact fun hfloat => absurd rfl (hfloat _)
  · exact fun hfloat => absurd rfl (hfloat _)

/-- A named value or a number is sound, and an end of the text comes after it. -/
theorem atom?_sound {s rest : Text} {x : Except Limit Scalar}
    (h : atom? s = some (x, rest)) : rest <:+ s ∧ ∀ a, x = .ok a → ScalarSound a := by
  rw [atom?, Option.orElse_eq_orElse, Option.orElse_eq_or, Option.or_eq_some_iff] at h
  rcases h with hnamed | ⟨-, hnumber⟩
  · obtain ⟨e, he, hfound⟩ := List.exists_of_findSome?_eq_some hnamed
    obtain ⟨tail, htail, heq⟩ := Option.map_eq_some_iff.mp hfound
    obtain ⟨rfl, rfl⟩ := Prod.mk.inj heq
    refine ⟨⟨e.1, (Text.consume?_eq_some_iff.mp htail).symm⟩, fun a ha => ?_⟩
    obtain rfl := Except.ok.inj ha
    exact scalarSound_of_mem_names he
  · exact number?_sound hnumber

/-! ### Values -/

/-- Fields that have been read: each name is joined and comes once, and the values are read back
unless there are fractional numbers in them. -/
structure FieldsSound (depth : Nat) (fields : List (Text × Json)) : Prop where
  names : ∀ f ∈ fields, f.1.IsJoined
  nodup : (fields.map Prod.fst).Nodup
  values : ∀ f ∈ fields, f.2.FloatFree → Restorable depth f.2

theorem FieldsSound.nil (depth : Nat) : FieldsSound depth [] :=
  ⟨List.forall_mem_nil _, List.nodup_nil, List.forall_mem_nil _⟩

theorem FieldsSound.restorable {depth : Nat} {fields : List (Text × Json)}
    (h : FieldsSound depth fields) (hfree : FloatFree (.object fields)) :
    Restorable (depth + 1) (.object fields) := by
  cases hfree with
  | object hitems => exact .object h.names h.nodup fun f hf => h.values f hf (hitems f hf)

theorem FieldsSound.setField {depth : Nat} {name : Text} {json : Json}
    {fields : List (Text × Json)} (h : FieldsSound depth fields) (hname : name.IsJoined)
    (hjson : json.FloatFree → Restorable depth json) :
    FieldsSound depth (setField name json fields) where
  names f hf := by
    rcases mem_setField hf with hf | rfl
    · exact h.names f hf
    · exact hname
  nodup := nodup_setField h.nodup
  values f hf := by
    rcases mem_setField hf with hf | rfl
    · exact h.values f hf
    · exact hjson

/-- What is read with some fuel is sound, and an end of the text comes after it. -/
structure ReadsSound (fuel : Nat) : Prop where
  value : ∀ {depth : Nat} {s rest : Text} {json : Json}, IsEncodable s →
    value fuel depth s = .ok (json, rest) →
      rest <:+ s ∧ (json.FloatFree → Restorable depth json)
  items : ∀ {depth : Nat} {s rest : Text} {xs : List Json}, IsEncodable s →
    items fuel depth s = .ok (xs, rest) →
      rest <:+ s ∧ ∀ x ∈ xs, x.FloatFree → Restorable depth x
  fields : ∀ {depth : Nat} {s rest : Text} {before fs : List (Text × Json)}, IsEncodable s →
    FieldsSound depth before → fields fuel depth before s = .ok (fs, rest) →
      rest <:+ s ∧ FieldsSound depth fs

namespace ReadsSound

variable {fuel depth : Nat} {s rest : Text}

theorem value_succ (ih : ReadsSound fuel) {json : Json} (hs : IsEncodable s)
    (h : Json.value (fuel + 1) depth s = .ok (json, rest)) :
    rest <:+ s ∧ (json.FloatFree → Restorable depth json) := by
  rw [Json.value.eq_def] at h
  simp only at h
  split at h
  · -- a string
    rename_i tail
    have htail := List.suffix_cons (CodePoint.char '"') tail
    obtain ⟨⟨t, _⟩, hok, heq⟩ := map_eq_ok_iff.mp h
    obtain ⟨rfl, rfl⟩ := Prod.mk.inj heq
    obtain ⟨hsuffix, hjoined⟩ := string_sound (hs.suffix htail) hok
    exact ⟨hsuffix.trans htail, fun _ => .scalar hjoined⟩
  · -- an array
    rename_i tail
    have htail : skipSpace tail <:+ .char '[' :: tail :=
      (skipSpace_suffix tail).trans (List.suffix_cons _ tail)
    split at h
    · exact absurd h (by simp)
    split at h
    · rename_i hclosed
      obtain ⟨rfl, rfl⟩ := Prod.mk.inj (Except.ok.inj h)
      rw [hclosed] at htail
      exact ⟨(List.suffix_cons _ _).trans htail, fun _ => .array (List.forall_mem_nil _)⟩
    · obtain ⟨⟨xs, _⟩, hok, heq⟩ := map_eq_ok_iff.mp h
      obtain ⟨rfl, rfl⟩ := Prod.mk.inj heq
      obtain ⟨hsuffix, hxs⟩ := ih.items (hs.suffix htail) hok
      refine ⟨hsuffix.trans htail, ?_⟩
      rintro ⟨⟩
      rename_i hfree
      exact .array fun x hx => hxs x hx (hfree x hx)
  · -- an object
    rename_i tail
    have htail : skipSpace tail <:+ .char '\x7b' :: tail :=
      (skipSpace_suffix tail).trans (List.suffix_cons _ tail)
    split at h
    · exact absurd h (by simp)
    split at h
    · rename_i hclosed
      obtain ⟨rfl, rfl⟩ := Prod.mk.inj (Except.ok.inj h)
      rw [hclosed] at htail
      exact ⟨(List.suffix_cons _ _).trans htail, (FieldsSound.nil _).restorable⟩
    · obtain ⟨⟨fs, _⟩, hok, heq⟩ := map_eq_ok_iff.mp h
      obtain ⟨rfl, rfl⟩ := Prod.mk.inj heq
      obtain ⟨hsuffix, hfs⟩ := ih.fields (hs.suffix htail) (.nil _) hok
      exact ⟨hsuffix.trans htail, hfs.restorable⟩
  · -- a named value or a number
    split at h
    · rename_i hatom
      obtain ⟨rfl, rfl⟩ := Prod.mk.inj (Except.ok.inj h)
      obtain ⟨hsuffix, hsound⟩ := atom?_sound hatom
      refine ⟨hsuffix, ?_⟩
      rintro ⟨⟩
      rename_i hfree
      exact .scalar (hsound _ rfl hfree)
    · exact absurd h (by simp)
    · exact absurd h (by simp)

theorem items_succ (ih : ReadsSound fuel) {xs : List Json} (hs : IsEncodable s)
    (h : Json.items (fuel + 1) depth s = .ok (xs, rest)) :
    rest <:+ s ∧ ∀ x ∈ xs, x.FloatFree → Restorable depth x := by
  rw [Json.items, bind_eq_ok_iff] at h
  obtain ⟨⟨item, afterItem⟩, hitem, h⟩ := h
  obtain ⟨hsuffix, hsound⟩ := ih.value hs hitem
  have hskip := (skipSpace_suffix afterItem).trans hsuffix
  simp only at h
  split at h
  · rename_i hclosed
    obtain ⟨rfl, rfl⟩ := Prod.mk.inj (Except.ok.inj h)
    rw [hclosed] at hskip
    exact ⟨(List.suffix_cons _ _).trans hskip, List.forall_mem_singleton.mpr hsound⟩
  · rename_i tail hcomma
    rw [hcomma] at hskip
    have htail := (skipSpace_suffix tail).trans ((List.suffix_cons _ _).trans hskip)
    obtain ⟨⟨ys, _⟩, hok, heq⟩ := map_eq_ok_iff.mp h
    obtain ⟨rfl, rfl⟩ := Prod.mk.inj heq
    obtain ⟨hrest, hys⟩ := ih.items (hs.suffix htail) hok
    exact ⟨hrest.trans htail, List.forall_mem_cons.mpr ⟨hsound, hys⟩⟩
  · exact absurd h (by simp)

theorem fields_succ (ih : ReadsSound fuel) {before fs : List (Text × Json)} (hs : IsEncodable s)
    (hbefore : FieldsSound depth before)
    (h : Json.fields (fuel + 1) depth before s = .ok (fs, rest)) :
    rest <:+ s ∧ FieldsSound depth fs := by
  rw [Json.fields.eq_def] at h
  simp only at h
  split at h
  · rename_i quoted
    rw [bind_eq_ok_iff] at h
    obtain ⟨⟨name, afterName⟩, hname, h⟩ := h
    have hquoted := List.suffix_cons (CodePoint.char '"') quoted
    obtain ⟨hsuffix, hjoined⟩ := string_sound (hs.suffix hquoted) hname
    have hskip := (skipSpace_suffix afterName).trans (hsuffix.trans hquoted)
    simp only at h
    split at h
    · rename_i tail hcolon
      rw [hcolon] at hskip
      have htail := (skipSpace_suffix tail).trans ((List.suffix_cons _ _).trans hskip)
      rw [bind_eq_ok_iff] at h
      obtain ⟨⟨item, afterItem⟩, hitem, h⟩ := h
      obtain ⟨hitemSuffix, hsound⟩ := ih.value (hs.suffix htail) hitem
      have hset := hbefore.setField hjoined hsound
      have hskip := (skipSpace_suffix afterItem).trans (hitemSuffix.trans htail)
      simp only at h
      split at h
      · rename_i hclosed
        obtain ⟨rfl, rfl⟩ := Prod.mk.inj (Except.ok.inj h)
        rw [hclosed] at hskip
        exact ⟨(List.suffix_cons _ _).trans hskip, hset⟩
      · rename_i tail hcomma
        rw [hcomma] at hskip
        have htail := (skipSpace_suffix tail).trans ((List.suffix_cons _ _).trans hskip)
        obtain ⟨hrest, hfs⟩ := ih.fields (hs.suffix htail) hset h
        exact ⟨hrest.trans htail, hfs⟩
      · exact absurd h (by simp)
    · exact absurd h (by simp)
  · exact absurd h (by simp)

end ReadsSound

theorem readsSound (fuel : Nat) : ReadsSound fuel := by
  induction fuel with
  | zero =>
    refine ⟨fun _ h => ?_, fun _ h => ?_, fun _ _ h => ?_⟩
    · rw [value] at h; exact absurd h (by simp)
    · rw [items] at h; exact absurd h (by simp)
    · rw [fields] at h; exact absurd h (by simp)
  | succ fuel ih => exact ⟨ih.value_succ, ih.items_succ, ih.fields_succ⟩

/-! ### Whole texts -/

/-- A value without fractional numbers that is read is read back from its written form. -/
theorem restorable_of_parse {text : Text} {json : Json} (htext : IsEncodable text)
    (h : parse text = .ok json) (hfree : json.FloatFree) : Restorable maxDepth json := by
  have hdocument : document text = .ok json := by
    rw [parse] at h
    cases hread : document text with
    | ok other =>
      rw [hread] at h
      exact congrArg Except.ok (Except.ok.inj h)
    | error e =>
      rw [hread] at h
      exact absurd h (by simp [Except.mapError])
  rw [document] at hdocument
  split at hdocument
  · exact absurd hdocument (by simp)
  obtain ⟨⟨other, rest⟩, hvalue, hend⟩ := bind_eq_ok_iff.mp hdocument
  have hsound := ((readsSound _).value (htext.suffix (skipSpace_suffix text)) hvalue).2
  simp only at hend
  split at hend
  · obtain rfl := Except.ok.inj hend
    exact hsound hfree
  · exact absurd hend (by simp)

/-- The values without fractional numbers that are read from some text are the restorable ones. -/
theorem isReadable_iff {json : Json} :
    json.IsReadable ∧ json.FloatFree ↔ Restorable maxDepth json := by
  constructor
  · rintro ⟨⟨text, htext, hparse⟩, hfree⟩
    exact restorable_of_parse htext hparse hfree
  · intro h
    have hencodable : IsEncodable json.indented := fun c hc =>
      isSurrogate_of_isWrittenChar (forall_mem_indentedAt 0 json c hc)
    exact ⟨⟨json.indented, hencodable, parse_indented h⟩, h.floatFree⟩

end Json

end UtilityCss

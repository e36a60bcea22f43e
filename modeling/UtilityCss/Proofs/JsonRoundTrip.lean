/-
Values written on several lines and read back.

* `Json.Legible` — the values whose written form is read: all scalars in them are read back, and
  the brackets are not nested too deep;
* `Json.settled` — what is read then: a name that comes again keeps its place and takes the
  new value;
* `Json.Restorable` — the values that are read back as they are: no name comes twice in an object;
* `Json.ReadsSettled` — the reader takes the written form of a value up to a break;
* `Json.readsSettled_scalar`, `Json.readsSettled_array`, `Json.readsSettled_object` — it does so
  if it does for the parts of the value;
* `Json.items_written`, `Json.fields_written` — the items and the fields in between;
* `Json.parse_indented_of_legible`, `Json.parse_indented` — the values that are read from whole
  texts.
-/
import Mathlib.Data.List.Nodup
import UtilityCss.Proofs.JsonNumber

namespace UtilityCss

namespace Json

/-! ### Values that are read back -/

/-- A value that is read back as it was written, where `depth` more brackets may be opened. -/
inductive Restorable : (depth : Nat) → Json → Prop
  | scalar {depth : Nat} {s : Scalar} (h : s.Restorable) : Restorable depth (.scalar s)
  | array {depth : Nat} {items : List Json} (hitems : ∀ item ∈ items, Restorable depth item) :
      Restorable (depth + 1) (.array items)
  | object {depth : Nat} {fields : List (Text × Json)} (hnames : ∀ f ∈ fields, f.1.IsJoined)
      (hnodup : (fields.map Prod.fst).Nodup) (hitems : ∀ f ∈ fields, Restorable depth f.2) :
      Restorable (depth + 1) (.object fields)

/-- A value whose written form is read, where `depth` more brackets may be opened. -/
inductive Legible : (depth : Nat) → Json → Prop
  | scalar {depth : Nat} {s : Scalar} (h : s.Restorable) : Legible depth (.scalar s)
  | array {depth : Nat} {items : List Json} (hitems : ∀ item ∈ items, Legible depth item) :
      Legible (depth + 1) (.array items)
  | object {depth : Nat} {fields : List (Text × Json)} (hnames : ∀ f ∈ fields, f.1.IsJoined)
      (hitems : ∀ f ∈ fields, Legible depth f.2) : Legible (depth + 1) (.object fields)

theorem Restorable.legible {depth : Nat} {json : Json} (h : Restorable depth json) :
    Legible depth json := by
  induction h with
  | scalar h => exact .scalar h
  | array _ ih => exact .array ih
  | object hnames _ _ ih => exact .object hnames ih

mutual

/-- What is read from the written form of a value: the fields of each object are set one after the
other. -/
def settled : Json → Json
  | .scalar s => .scalar s
  | .array items => .array (settledItems items)
  | .object fields => .object (settledFields [] fields)

/-- What is read from the written form of each item. -/
def settledItems : List Json → List Json
  | [] => []
  | item :: items => settled item :: settledItems items

/-- The fields that are read from written fields, after those read before. -/
def settledFields (before : List (Text × Json)) : List (Text × Json) → List (Text × Json)
  | [] => before
  | (name, item) :: fields => settledFields (setField name (settled item) before) fields

end

theorem settledItems_eq_map (items : List Json) : settledItems items = items.map settled := by
  induction items with
  | nil => rfl
  | cons item items ih => rw [settledItems, ih, List.map_cons]

/-- A text that begins with a character of a value. -/
def BeginsValue (s : Text) : Prop :=
  ∃ c tail, s = c :: tail ∧ isSpace c = false ∧ c ≠ ']' ∧ c ≠ '\ufeff'

/-- The written form of a value is read up to a break, with a fuel of twice the length of the
text. -/
structure ReadsSettled (depth : Nat) (json : Json) : Prop where
  begins : ∀ indent rest, BeginsValue (indentedAt indent json ++ rest)
  reads : ∀ indent fuel rest, IsBreak rest →
    2 * (indentedAt indent json ++ rest).length ≤ fuel →
      value fuel depth (indentedAt indent json ++ rest) = .ok (json.settled, rest)

/-! ### Space and separators -/

theorem skipSpace_of_not_isSpace {c : CodePoint} (h : isSpace c = false) (s : Text) :
    skipSpace (c :: s) = c :: s := by
  rw [skipSpace, List.dropWhile_cons, h]
  rfl

theorem skipSpace_newline (indent : Nat) (s : Text) :
    skipSpace (newline indent ++ s) = skipSpace s := by
  have hspace : ∀ c ∈ newline indent, isSpace c = true := by
    refine List.forall_mem_cons.mpr ⟨rfl, fun c hc => ?_⟩
    rw [List.eq_of_mem_replicate hc]
    rfl
  exact List.dropWhile_append_of_pos hspace

theorem skipSpace_newline_cons (indent : Nat) {c : CodePoint} (h : isSpace c = false) (s : Text) :
    skipSpace (newline indent ++ c :: s) = c :: s :=
  (skipSpace_newline indent _).trans (skipSpace_of_not_isSpace h s)

theorem BeginsValue.skipSpace_newline {s : Text} (h : BeginsValue s) (indent : Nat) :
    skipSpace (newline indent ++ s) = s := by
  obtain ⟨c, tail, rfl, hc, -⟩ := h
  exact skipSpace_newline_cons indent hc tail

/-- What stands between two parts. -/
def separator (indent : Nat) : Text :=
  ↑"," ++ newline indent

theorem separator_append (indent : Nat) (s : Text) :
    separator indent ++ s = .char ',' :: (newline indent ++ s) := by
  rw [separator, Text.ofString_ofList]
  rfl

/-- Parts between brackets, the later ones each after a separator. -/
theorem bracketed_append {indent : Nat} {opening closing : CodePoint} {part : Text}
    {parts : List Text} (rest : Text) :
    bracketed indent opening closing (part :: parts) ++ rest =
      opening :: (newline (indent + 1) ++
        (part ++ (parts.flatMap (separator (indent + 1) ++ ·) ++
          (newline indent ++ closing :: rest)))) := by
  rw [bracketed, ← separator, Text.join_cons]
  · simp only [List.cons_append, List.append_assoc, List.nil_append]
  · exact List.cons_ne_nil part parts

theorem indentedItems_eq_map (indent : Nat) (items : List Json) :
    indentedItems indent items = items.map (indentedAt indent) := by
  induction items with
  | nil => rfl
  | cons item items ih => rw [indentedItems, ih, List.map_cons]

/-- A field as it is written. -/
def fieldText (indent : Nat) (f : Text × Json) : Text :=
  quote f.1 ++ ": " ++ indentedAt indent f.2

theorem indentedFields_eq_map (indent : Nat) (fields : List (Text × Json)) :
    indentedFields indent fields = fields.map (fieldText indent) := by
  induction fields with
  | nil => rfl
  | cons f fields ih => rw [indentedFields, ih, List.map_cons, fieldText]

/-- The fuel is not used up while some text is left. -/
theorem exists_fuel {fuel : Nat} {s : Text} (hs : s ≠ []) (h : 2 * s.length ≤ fuel) :
    ∃ n, fuel = n + 1 := by
  have hlength := List.length_pos_iff.mpr hs
  exact ⟨fuel - 1, by omega⟩

/-! ### Scalars -/

theorem quote_append (s rest : Text) :
    quote s ++ rest = .char '"' :: (s.flatMap escapeChar ++ .char '"' :: rest) := by
  rw [quote, Text.ofString_ofList, List.cons_append, List.append_assoc]
  rfl

/-- The characters that names and integers begin with. -/
def isAtomStart (c : CodePoint) : Bool :=
  c.isDigit || c = '-' || c = 'n' || c = 't' || c = 'f'

theorem written_eq_cons {s : Scalar} (hs : s.Restorable) (htext : ∀ t, s ≠ .text t) :
    ∃ c tail, s.written = c :: tail ∧ isAtomStart c = true := by
  cases s with
  | null => exact ⟨_, _, Text.ofString_ofList _, rfl⟩
  | bool b =>
    cases b with
    | true => exact ⟨_, _, Text.ofString_ofList _, rfl⟩
    | false => exact ⟨_, _, Text.ofString_ofList _, rfl⟩
  | int n =>
    cases n with
    | ofNat n =>
      obtain ⟨c, digits, h, hc⟩ := decimal_eq_cons n
      exact ⟨c, digits, h, by rw [isAtomStart, hc]; rfl⟩
    | negSucc n => exact ⟨_, _, rfl, rfl⟩
  | float x => exact absurd hs id
  | text t => exact absurd rfl (htext t)

theorem ne_of_isAtomStart {c d : CodePoint} (hc : isAtomStart c = true)
    (hd : isAtomStart d = false) : c ≠ d := by
  rintro rfl
  exact absurd hc (by simp [hd])

theorem isSpace_of_isAtomStart {c : CodePoint} (hc : isAtomStart c = true) : isSpace c = false := by
  simp only [isSpace, Bool.or_eq_false_iff, decide_eq_false_iff_not]
  exact ⟨⟨⟨ne_of_isAtomStart hc rfl, ne_of_isAtomStart hc rfl⟩, ne_of_isAtomStart hc rfl⟩,
    ne_of_isAtomStart hc rfl⟩

theorem value_of_atom? {fuel depth : Nat} {c : CodePoint} {s rest : Text} {a : Scalar}
    (hc : isAtomStart c = true) (h : atom? (c :: s) = some (.ok a, rest)) :
    value (fuel + 1) depth (c :: s) = .ok (.scalar a, rest) := by
  rw [value.eq_def]
  simp only
  split
  · rename_i hcons; exact absurd (List.cons.inj hcons).1 (ne_of_isAtomStart hc rfl)
  · rename_i hcons; exact absurd (List.cons.inj hcons).1 (ne_of_isAtomStart hc rfl)
  · rename_i hcons; exact absurd (List.cons.inj hcons).1 (ne_of_isAtomStart hc rfl)
  · rw [h]

theorem readsSettled_text {depth : Nat} {s : Text} (hs : s.IsJoined) :
    ReadsSettled depth (.text s) where
  begins indent rest := by
    show BeginsValue (quote s ++ rest)
    rw [quote_append]
    exact ⟨_, _, rfl, rfl, by decide, by decide⟩
  reads indent fuel rest _ hfuel := by
    show value fuel depth (quote s ++ rest) = _
    obtain ⟨n, rfl⟩ := exists_fuel (List.cons_ne_nil _ _) hfuel
    rw [quote_append, value, string_flatMap hs]
    rfl

theorem readsSettled_scalar {depth : Nat} {s : Scalar} (hs : s.Restorable) :
    ReadsSettled depth (.scalar s) := by
  by_cases htext : ∃ t, s = .text t
  · obtain ⟨t, rfl⟩ := htext
    exact readsSettled_text hs
  have hne : ∀ t, s ≠ .text t := fun t h => htext ⟨t, h⟩
  obtain ⟨c, tail, hcons, hc⟩ := written_eq_cons hs hne
  refine ⟨fun _ rest => ?_, fun indent fuel rest hrest hfuel => ?_⟩
  · rw [indentedAt, hcons]
    exact ⟨c, tail ++ rest, rfl, isSpace_of_isAtomStart hc, ne_of_isAtomStart hc rfl,
      ne_of_isAtomStart hc rfl⟩
  · have hatom := atom?_written hs hne hrest
    rw [indentedAt, hcons] at hfuel ⊢
    rw [hcons] at hatom
    obtain ⟨n, rfl⟩ := exists_fuel (List.cons_ne_nil c (tail ++ rest)) hfuel
    exact value_of_atom? hc hatom

/-! ### Arrays -/

theorem isBreak_newline_append (indent : Nat) (rest : Text) : IsBreak (newline indent ++ rest) :=
  isBreak_newline _

/-- Items whose written form is read are read up to the bracket that closes them. -/
theorem items_written {depth : Nat} (indent outer : Nat) (rest : Text) {x : Json} {xs : List Json}
    (hx : ReadsSettled depth x) (hxs : ∀ y ∈ xs, ReadsSettled depth y) {fuel : Nat}
    (hfuel : 2 * (indentedAt indent x ++
      ((xs.map (indentedAt indent)).flatMap (separator indent ++ ·) ++
        (newline outer ++ .char ']' :: rest))).length < fuel) :
    items fuel depth (indentedAt indent x ++
      ((xs.map (indentedAt indent)).flatMap (separator indent ++ ·) ++
        (newline outer ++ .char ']' :: rest))) = .ok (x.settled :: xs.map settled, rest) := by
  induction xs generalizing x fuel with
  | nil =>
    -- the last item stands before a line feed and the bracket
    obtain ⟨n, rfl⟩ : ∃ n, fuel = n + 1 := ⟨fuel - 1, by omega⟩
    rw [List.map_nil, List.flatMap_nil, List.nil_append] at hfuel ⊢
    rw [items, hx.reads indent n _ (isBreak_newline_append outer _) (by omega)]
    simp only [bind, Except.bind, skipSpace_newline_cons outer (rfl : isSpace (.char ']') = false),
      List.map_nil]
  | cons y ys ih =>
    -- any other item stands before a comma and the next one
    obtain ⟨hy, hys⟩ := List.forall_mem_cons.mp hxs
    obtain ⟨n, rfl⟩ : ∃ n, fuel = n + 1 := ⟨fuel - 1, by omega⟩
    rw [List.map_cons, List.flatMap_cons, List.append_assoc, List.append_assoc,
      separator_append] at hfuel ⊢
    rw [items, hx.reads indent n _ (isBreak_comma _) (by omega)]
    simp only [bind, Except.bind, skipSpace_of_not_isSpace (rfl : isSpace (.char ',') = false),
      (hy.begins indent _).skipSpace_newline indent]
    rw [ih hy hys]
    · rfl
    · simp only [List.length_append, List.length_cons] at hfuel ⊢
      omega

/-- The reader goes on with the items after an opening bracket. -/
theorem value_bracket {fuel depth indent : Nat} {s : Text} (hs : BeginsValue s) :
    value (fuel + 1) (depth + 1) (.char '[' :: (newline indent ++ s)) =
      (items fuel depth s).map fun (xs, rest) => (.array xs, rest) := by
  rw [value, hs.skipSpace_newline]
  obtain ⟨c, tail, rfl, -, hc, -⟩ := hs
  split
  · rename_i heq; exact absurd (List.cons.inj heq).1 hc
  · rfl

theorem readsSettled_array {depth : Nat} {xs : List Json} (hxs : ∀ x ∈ xs, ReadsSettled depth x) :
    ReadsSettled (depth + 1) (.array xs) := by
  cases xs with
  | nil =>
    refine ⟨fun _ rest => ⟨_, _, rfl, rfl, by decide, by decide⟩, fun indent fuel rest _ hfuel => ?_⟩
    obtain ⟨n, rfl⟩ := exists_fuel (List.cons_ne_nil _ _) hfuel
    show value (n + 1) (depth + 1) (.char '[' :: .char ']' :: rest) = _
    rw [value, skipSpace_of_not_isSpace rfl]
    rfl
  | cons x xs =>
    obtain ⟨hx, hxs⟩ := List.forall_mem_cons.mp hxs
    have hwritten (indent : Nat) (rest : Text) :
        indentedAt indent (.array (x :: xs)) ++ rest =
          .char '[' :: (newline (indent + 1) ++ (indentedAt (indent + 1) x ++
            ((xs.map (indentedAt (indent + 1))).flatMap (separator (indent + 1) ++ ·) ++
              (newline indent ++ .char ']' :: rest)))) := by
      rw [indentedAt, indentedItems_eq_map, List.map_cons, bracketed_append]
    refine ⟨fun indent rest => ?_, fun indent fuel rest _ hfuel => ?_⟩
    · rw [hwritten]
      exact ⟨_, _, rfl, rfl, by decide, by decide⟩
    · obtain ⟨n, rfl⟩ := exists_fuel (by rw [hwritten]; exact List.cons_ne_nil _ _) hfuel
      rw [hwritten] at hfuel ⊢
      rw [value_bracket (hx.begins _ _), items_written (indent + 1) indent rest hx hxs, settled,
        settledItems_eq_map]
      · rfl
      · simp only [List.length_append, List.length_cons] at hfuel ⊢
        omega

/-! ### Objects -/

theorem setField_of_notMem {name : Text} {json : Json} {fields : List (Text × Json)}
    (h : name ∉ fields.map Prod.fst) : setField name json fields = fields ++ [(name, json)] := by
  induction fields with
  | nil => rfl
  | cons f fields ih =>
    rw [List.map_cons, List.mem_cons, not_or] at h
    rw [setField, if_neg (Ne.symm h.1), ih h.2, List.cons_append]

/-- The names after a name has been set: it is one of them. -/
theorem map_fst_setField (name : Text) (json : Json) (fields : List (Text × Json)) :
    (setField name json fields).map Prod.fst =
      if name ∈ fields.map Prod.fst then fields.map Prod.fst
      else fields.map Prod.fst ++ [name] := by
  induction fields with
  | nil => rfl
  | cons f fields ih =>
    rw [setField.eq_def]
    simp only
    split
    · rename_i hname
      simp [hname]
    · rename_i hname
      rw [List.map_cons, ih, List.map_cons]
      by_cases hmem : name ∈ fields.map Prod.fst
      · rw [if_pos hmem, if_pos (List.mem_cons_of_mem _ hmem)]
      · have hnot : name ∉ f.1 :: fields.map Prod.fst := by
          rw [List.mem_cons, not_or]
          exact ⟨Ne.symm hname, hmem⟩
        rw [if_neg hmem, if_neg hnot, List.cons_append]

theorem mem_setField {name : Text} {json : Json} {fields : List (Text × Json)} {f : Text × Json}
    (h : f ∈ setField name json fields) : f ∈ fields ∨ f = (name, json) := by
  induction fields with
  | nil => exact .inr (List.mem_singleton.mp h)
  | cons g fields ih =>
    rw [setField.eq_def] at h
    simp only at h
    split at h
    · rename_i hname
      rcases List.mem_cons.mp h with rfl | h
      · exact .inr (by rw [hname])
      · exact .inl (List.mem_cons_of_mem _ h)
    · rcases List.mem_cons.mp h with rfl | h
      · exact .inl List.mem_cons_self
      · exact (ih h).imp_left (List.mem_cons_of_mem _)

theorem nodup_setField {name : Text} {json : Json} {fields : List (Text × Json)}
    (h : (fields.map Prod.fst).Nodup) : ((setField name json fields).map Prod.fst).Nodup := by
  rw [map_fst_setField]
  split
  · exact h
  · rename_i hname
    exact List.nodup_append.mpr ⟨h, List.nodup_singleton _, fun a ha b hb => by
      rw [List.mem_singleton.mp hb]
      exact fun heq => hname (heq ▸ ha)⟩

theorem fieldText_append (indent : Nat) (f : Text × Json) (rest : Text) :
    fieldText indent f ++ rest =
      .char '"' :: (f.1.flatMap escapeChar ++ .char '"' :: .char ':' :: .char ' ' ::
        (indentedAt indent f.2 ++ rest)) := by
  rw [fieldText, List.append_assoc, List.append_assoc, quote_append, Text.ofString_ofList]
  rfl

theorem beginsValue_fieldText (indent : Nat) (f : Text × Json) (rest : Text) :
    BeginsValue (fieldText indent f ++ rest) := by
  rw [fieldText_append]
  exact ⟨_, _, rfl, rfl, by decide, by decide⟩

theorem length_fieldText_append (indent : Nat) (f : Text × Json) (rest : Text) :
    (indentedAt indent f.2 ++ rest).length < (fieldText indent f ++ rest).length := by
  rw [fieldText_append]
  simp only [List.length_append, List.length_cons]
  omega

/-- What is read after a field: the brace that closes the fields, or a comma and more of them. -/
def afterField (fuel depth : Nat) (before : List (Text × Json)) (rest : Text) :
    Except Failure (List (Text × Json) × Text) :=
  match skipSpace rest with
  | '\x7d' :: rest => .ok (before, rest)
  | ',' :: rest => fields fuel depth before (skipSpace rest)
  | rest => .error (.grammar .comma rest)

theorem fields_cons {fuel depth : Nat} (indent : Nat) (before : List (Text × Json))
    {f : Text × Json} (hname : f.1.IsJoined) (hf : ReadsSettled depth f.2) {rest : Text}
    (hrest : IsBreak rest) (hfuel : 2 * (indentedAt indent f.2 ++ rest).length ≤ fuel) :
    fields (fuel + 1) depth before (fieldText indent f ++ rest) =
      afterField fuel depth (setField f.1 f.2.settled before) rest := by
  have hvalue : skipSpace (.char ' ' :: (indentedAt indent f.2 ++ rest)) =
      indentedAt indent f.2 ++ rest := by
    obtain ⟨c, tail, hs, hc, -⟩ := hf.begins indent rest
    rw [hs]
    exact skipSpace_of_not_isSpace hc tail
  rw [fieldText_append, fields, string_flatMap hname]
  simp only [bind, Except.bind, skipSpace_of_not_isSpace (rfl : isSpace (.char ':') = false),
    hvalue, hf.reads indent fuel rest hrest hfuel]
  rfl

/-- Fields whose written form is read are read up to the brace that closes them. -/
theorem fields_written {depth : Nat} (indent outer : Nat) (rest : Text)
    {before : List (Text × Json)} {f : Text × Json} {fs : List (Text × Json)}
    (hnames : ∀ g ∈ f :: fs, g.1.IsJoined) (hvalues : ∀ g ∈ f :: fs, ReadsSettled depth g.2)
    {fuel : Nat} (hfuel : 2 * (fieldText indent f ++
      ((fs.map (fieldText indent)).flatMap (separator indent ++ ·) ++
        (newline outer ++ .char '\x7d' :: rest))).length < fuel) :
    fields fuel depth before (fieldText indent f ++
      ((fs.map (fieldText indent)).flatMap (separator indent ++ ·) ++
        (newline outer ++ .char '\x7d' :: rest))) = .ok (settledFields before (f :: fs), rest) := by
  induction fs generalizing before f fuel with
  | nil =>
    -- the last field stands before a line feed and the brace
    obtain ⟨n, rfl⟩ : ∃ n, fuel = n + 1 := ⟨fuel - 1, by omega⟩
    rw [List.forall_mem_singleton] at hnames hvalues
    rw [List.map_nil, List.flatMap_nil, List.nil_append] at hfuel ⊢
    have hlength := length_fieldText_append indent f (newline outer ++ .char '\x7d' :: rest)
    rw [fields_cons indent before hnames hvalues (isBreak_newline_append outer _) (by omega),
      afterField, skipSpace_newline_cons outer rfl]
    rfl
  | cons g fs ih =>
    -- any other field stands before a comma and the next one
    obtain ⟨n, rfl⟩ : ∃ n, fuel = n + 1 := ⟨fuel - 1, by omega⟩
    obtain ⟨hname, hnames⟩ := List.forall_mem_cons.mp hnames
    obtain ⟨hf, hvalues⟩ := List.forall_mem_cons.mp hvalues
    rw [List.map_cons, List.flatMap_cons, List.append_assoc, List.append_assoc,
      separator_append] at hfuel ⊢
    have hlength := length_fieldText_append indent f (.char ',' :: (newline indent ++
      (fieldText indent g ++ ((fs.map (fieldText indent)).flatMap (separator indent ++ ·) ++
        (newline outer ++ .char '\x7d' :: rest)))))
    rw [fields_cons indent before hname hf (isBreak_comma _) (by omega), afterField,
      skipSpace_of_not_isSpace rfl]
    show fields n depth _ (skipSpace (newline indent ++ _)) = _
    rw [(beginsValue_fieldText indent g _).skipSpace_newline, ih hnames hvalues]
    · rfl
    · simp only [List.length_append, List.length_cons] at hfuel ⊢
      omega

/-- The reader goes on with the fields after an opening brace. -/
theorem value_brace {fuel depth indent : Nat} {f : Text × Json} {rest : Text} :
    value (fuel + 1) (depth + 1) (.char '\x7b' :: (newline indent ++ (fieldText indent f ++ rest))) =
      (fields fuel depth [] (fieldText indent f ++ rest)).map
        fun (xs, rest) => (.object xs, rest) := by
  rw [value, (beginsValue_fieldText indent f rest).skipSpace_newline, fieldText_append]
  rfl

theorem readsSettled_object {depth : Nat} {fs : List (Text × Json)}
    (hnames : ∀ f ∈ fs, f.1.IsJoined) (hvalues : ∀ f ∈ fs, ReadsSettled depth f.2) :
    ReadsSettled (depth + 1) (.object fs) := by
  cases fs with
  | nil =>
    refine ⟨fun _ rest => ⟨_, _, rfl, rfl, by decide, by decide⟩, fun indent fuel rest _ hfuel => ?_⟩
    obtain ⟨n, rfl⟩ := exists_fuel (List.cons_ne_nil _ _) hfuel
    show value (n + 1) (depth + 1) (.char '\x7b' :: .char '\x7d' :: rest) = _
    rw [value, skipSpace_of_not_isSpace rfl]
    rfl
  | cons f fs =>
    have hwritten (indent : Nat) (rest : Text) :
        indentedAt indent (.object (f :: fs)) ++ rest =
          .char '\x7b' :: (newline (indent + 1) ++ (fieldText (indent + 1) f ++
            ((fs.map (fieldText (indent + 1))).flatMap (separator (indent + 1) ++ ·) ++
              (newline indent ++ .char '\x7d' :: rest)))) := by
      rw [indentedAt, indentedFields_eq_map, List.map_cons, bracketed_append]
    refine ⟨fun indent rest => ?_, fun indent fuel rest _ hfuel => ?_⟩
    · rw [hwritten]
      exact ⟨_, _, rfl, rfl, by decide, by decide⟩
    · obtain ⟨n, rfl⟩ := exists_fuel (by rw [hwritten]; exact List.cons_ne_nil _ _) hfuel
      rw [hwritten] at hfuel ⊢
      rw [value_brace, fields_written (indent + 1) indent rest hnames hvalues, settled]
      · rfl
      · simp only [List.length_append, List.length_cons] at hfuel ⊢
        omega

/-! ### Settled values -/

/-- Fields each of which has its own name settle after those before. -/
theorem settledFields_of_nodup {before fields : List (Text × Json)}
    (hnodup : ((before ++ fields).map Prod.fst).Nodup) :
    settledFields before fields = before ++ fields.map fun f => (f.1, f.2.settled) := by
  induction fields generalizing before with
  | nil => exact (List.append_nil before).symm
  | cons f fields ih =>
    have hnew : f.1 ∉ before.map Prod.fst := by
      rw [List.map_append, List.map_cons, List.nodup_middle] at hnodup
      exact fun hmem => (List.nodup_cons.mp hnodup).1 (List.mem_append_left _ hmem)
    have hnodup : ((before ++ [(f.1, f.2.settled)] ++ fields).map Prod.fst).Nodup := by
      simpa using hnodup
    rw [settledFields, setField_of_notMem hnew, ih hnodup, List.map_cons, ← List.append_cons]

theorem settled_object_of_nodup {fields : List (Text × Json)}
    (hnodup : (fields.map Prod.fst).Nodup) :
    settled (.object fields) = .object (fields.map fun f => (f.1, f.2.settled)) := by
  have hfields : settledFields [] fields = [] ++ fields.map fun f => (f.1, f.2.settled) :=
    settledFields_of_nodup hnodup
  rw [settled, hfields, List.nil_append]

/-- The fields that have settled are earlier ones, or written ones with their values settled. -/
theorem mem_settledFields {before fields : List (Text × Json)} {f : Text × Json}
    (h : f ∈ settledFields before fields) :
    f ∈ before ∨ ∃ g ∈ fields, f = (g.1, g.2.settled) := by
  induction fields generalizing before with
  | nil => exact .inl h
  | cons g fields ih =>
    rw [settledFields] at h
    rcases ih h with h | ⟨g', hg', heq⟩
    · rcases mem_setField h with h | rfl
      · exact .inl h
      · exact .inr ⟨g, List.mem_cons_self, rfl⟩
    · exact .inr ⟨g', List.mem_cons_of_mem _ hg', heq⟩

theorem nodup_settledFields {before fields : List (Text × Json)}
    (h : (before.map Prod.fst).Nodup) : ((settledFields before fields).map Prod.fst).Nodup := by
  induction fields generalizing before with
  | nil => exact h
  | cons f fields ih => exact ih (nodup_setField h)

/-- Every name is one of those that have settled. -/
theorem mem_map_fst_settledFields {before fields : List (Text × Json)} {name : Text}
    (h : name ∈ before.map Prod.fst ∨ name ∈ fields.map Prod.fst) :
    name ∈ (settledFields before fields).map Prod.fst := by
  induction fields generalizing before with
  | nil => exact h.resolve_right List.not_mem_nil
  | cons f fields ih =>
    refine ih ?_
    rw [map_fst_setField]
    rcases h with h | h
    · left
      split
      · exact h
      · exact List.mem_append_left _ h
    · rcases List.mem_cons.mp h with rfl | h
      · left
        split
        · assumption
        · exact List.mem_append_right _ (List.mem_singleton_self _)
      · exact .inr h

theorem length_setField (name : Text) (json : Json) (fields : List (Text × Json)) :
    (setField name json fields).length =
      if name ∈ fields.map Prod.fst then fields.length else fields.length + 1 := by
  have hnames := congrArg List.length (map_fst_setField name json fields)
  rw [List.length_map] at hnames
  rw [hnames]
  split <;> simp

theorem length_settledFields_le (before fields : List (Text × Json)) :
    (settledFields before fields).length ≤ before.length + fields.length := by
  induction fields generalizing before with
  | nil => exact Nat.le_refl _
  | cons f fields ih =>
    have hrest := ih (setField f.1 f.2.settled before)
    rw [length_setField] at hrest
    rw [settledFields, List.length_cons]
    split at hrest <;> omega

/-- No field is lost only if no name comes twice. -/
theorem nodup_of_length_settledFields {before fields : List (Text × Json)}
    (hbefore : (before.map Prod.fst).Nodup)
    (hlength : (settledFields before fields).length = before.length + fields.length) :
    ((before ++ fields).map Prod.fst).Nodup := by
  induction fields generalizing before with
  | nil => rwa [List.append_nil]
  | cons f fields ih =>
    have hrest := length_settledFields_le (setField f.1 f.2.settled before) fields
    have hset := length_setField f.1 f.2.settled before
    rw [settledFields, List.length_cons] at hlength
    by_cases hname : f.1 ∈ before.map Prod.fst
    · -- the name takes no place of its own
      rw [if_pos hname] at hset
      omega
    · rw [if_neg hname] at hset
      have hlength : (settledFields (setField f.1 f.2.settled before) fields).length =
          (setField f.1 f.2.settled before).length + fields.length := by omega
      have hnodup := ih (nodup_setField hbefore) hlength
      rw [setField_of_notMem hname] at hnodup
      simpa using hnodup

/-- A value without repeated names is settled. -/
theorem Restorable.settled_eq {depth : Nat} {json : Json} (h : Restorable depth json) :
    json.settled = json := by
  induction h with
  | scalar _ => rfl
  | array _ ih => rw [settled, settledItems_eq_map, List.map_congr_left ih, List.map_id']
  | @object _ fields _ hnodup _ ih =>
    have hfields : (fields.map fun f => (f.1, f.2.settled)) = fields := by
      refine (List.map_congr_left fun f hf => ?_).trans (List.map_id' fields)
      rw [ih f hf]
    rw [settled_object_of_nodup hnodup, hfields]

/-! ### Whole texts -/

theorem Legible.readsSettled {depth : Nat} {json : Json} (h : Legible depth json) :
    ReadsSettled depth json := by
  induction h with
  | scalar h => exact readsSettled_scalar h
  | array _ ih => exact readsSettled_array ih
  | object hnames _ ih => exact readsSettled_object hnames ih

/-- A legible value is read from the text it is written to, with its names settled. -/
theorem parse_indented_of_legible {json : Json} (h : Legible maxDepth json) :
    parse json.indented = .ok json.settled := by
  have hback := h.readsSettled
  obtain ⟨c, tail, hcons, hspace, -, hmark⟩ := hback.begins 0 []
  have hreads := hback.reads 0 (2 * json.indented.length + 2) [] isBreak_nil
    (by rw [List.append_nil, indented]; omega)
  rw [List.append_nil, ← indented] at hcons hreads
  have hskip : skipSpace json.indented = json.indented := by
    rw [hcons, skipSpace_of_not_isSpace hspace]
  have hfirst : json.indented.head? ≠ some (.char '\ufeff') := by
    rw [hcons]
    exact fun h => hmark (Option.some.inj h)
  rw [parse, document, if_neg hfirst, hskip, hreads]
  rfl

/-- A restorable value is read back from the text it is written to. -/
theorem parse_indented {json : Json} (h : Restorable maxDepth json) :
    parse json.indented = .ok json := by
  rw [parse_indented_of_legible h.legible, h.settled_eq]

end Json

end UtilityCss

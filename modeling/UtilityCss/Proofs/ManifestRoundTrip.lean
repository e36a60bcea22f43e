/-
Manifests written to a file and read back.

* `StoredRule.IsPlain`, `Manifest.IsPlain` — manifests whose fields are texts, no token and no
  name of a variant twice;
* `Manifest.IsPlain.isRestorable` — each part of them is read back;
* `Manifest.IsPlain.load_eq_ok` — a plain manifest is loaded from its file as it was;
* `Manifest.isPlain_build` — the manifest of a list of tokens is plain;
* `Manifest.load_save` — a plain manifest is written in ASCII, and read back from its file.
-/
import UtilityCss.Proofs.ManifestFile
import UtilityCss.Proofs.ManifestSheet
import UtilityCss.Proofs.SheetAscii

namespace UtilityCss

/-! ### Manifests of texts -/

/-- A value that is a text, no high surrogate in it right before a low one. -/
def Json.IsJoinedText (json : Json) : Prop :=
  ∃ s : Text, s.IsJoined ∧ json = .text s

/-- A stored rule whose fields are texts; it may be without a media query. -/
structure StoredRule.IsPlain (r : StoredRule) : Prop where
  selector : r.selector.IsJoinedText
  declarations : r.declarations.IsJoinedText
  media : r.media = .null ∨ ∃ s : Text, s ≠ [] ∧ s.IsJoined ∧ r.media = .text s

/-- A manifest whose fields are texts, each token in it once and each name of a variant. -/
structure Manifest.IsPlain (m : Manifest) : Prop where
  version : m.version.IsJoinedText
  generatedAt : m.generatedAt.IsJoinedText
  critical : m.critical.IsJoinedText
  tokens : ∀ e ∈ m.rules, e.1.IsJoined
  tokens_nodup : (m.rules.map Prod.fst).Nodup
  rules : ∀ e ∈ m.rules, ∀ r ∈ e.2, r.IsPlain
  names : ∀ v ∈ m.variants, ∃ s : Text, s.IsJoined ∧ v.1 = .text s
  names_nodup : (m.variants.map Prod.fst).Nodup
  values : ∀ v ∈ m.variants, v.2.IsJoinedText

/-! ### Plain manifests are kept -/

theorem Json.IsJoinedText.restorable {json : Json} (h : json.IsJoinedText) (depth : Nat) :
    Restorable depth json := by
  obtain ⟨s, hs, rfl⟩ := h
  exact restorable_text hs depth

namespace StoredRule.IsPlain

variable {r : StoredRule}

theorem isRestorable (h : r.IsPlain) (depth : Nat) : r.IsRestorable depth := by
  refine ⟨h.selector.restorable depth, h.declarations.restorable depth, ?_⟩
  rcases h.media with hmedia | ⟨s, -, hs, hmedia⟩
  · rw [hmedia]
    exact .scalar trivial
  · rw [hmedia]
    exact Json.restorable_text hs depth

/-- A media query is a text that is not empty, so none of them counts as nothing. -/
theorem media_eq_null (h : r.IsPlain) (hblank : r.media.isBlank = true) : r.media = .null := by
  rcases h.media with hmedia | ⟨s, hne, -, hmedia⟩
  · exact hmedia
  · rw [hmedia] at hblank
    exact absurd (List.isEmpty_iff.mp hblank) hne

end StoredRule.IsPlain

namespace Manifest.IsPlain

variable {m : Manifest}

theorem hasPlainQueries (h : m.IsPlain) : m.HasPlainQueries :=
  fun e he r hr => (h.rules e he r hr).media_eq_null

theorem hasTextNames (h : m.IsPlain) : m.HasTextNames :=
  fun v hv => (h.names v hv).imp fun _ hs => hs.2

theorem isRestorable_variants (h : m.IsPlain) (depth : Nat) : m.variants.IsRestorable depth := by
  refine ⟨fun v hv => ?_, ?_, fun v hv => (h.values v hv).restorable depth⟩
  · obtain ⟨s, hs, hname⟩ := h.names v hv
    rwa [hname]
  · -- names that are texts are equal as values only if they are the same
    refine (List.pairwise_map.mp h.names_nodup).imp_of_mem fun {v w} hv hw hne => ?_
    obtain ⟨s, -, hname⟩ := h.names w hw
    rw [hname] at hne ⊢
    exact Bool.eq_false_iff.mpr fun hsame => hne (Scalar.eq_text_of_same hsame)

theorem isRestorable (h : m.IsPlain) (depth : Nat) : m.IsRestorable depth where
  version := h.version.restorable _
  generatedAt := h.generatedAt.restorable _
  critical := h.critical.restorable _
  tokens := h.tokens
  tokens_nodup := h.tokens_nodup
  rules e he r hr := (h.rules e he r hr).isRestorable depth
  variants := h.isRestorable_variants _

/-- A plain manifest is read back from the text of its file. -/
theorem load_eq_ok (h : m.IsPlain) : load m.save = .ok m := by
  have hrestorable := h.isRestorable 986
  rw [hrestorable.load_eq_reloaded, hrestorable.reloaded_eq h.hasPlainQueries h.hasTextNames]

end Manifest.IsPlain

/-! ### Manifests of tokens -/

/-- What is stored for a rule of a token is written in visible characters. -/
theorem isPlain_stored {token : Text} {r : Rule} (h : resolve? token = some r) :
    r.stored.IsPlain := by
  have hr := Rule.wellFormed_of_resolve? h
  refine ⟨⟨_, ?_, rfl⟩, ⟨_, ?_, rfl⟩, ?_⟩
  · exact Json.isJoined_of_forall_isVisible hr.isVisible_selector
  · exact Json.isJoined_of_forall_isVisible hr.isVisible_declarationText
  · cases hmedia : r.media with
    | none => exact .inl (by rw [Rule.stored, hmedia]; rfl)
    | some m =>
      have hquery : r.stored.media = .text m.query := by rw [Rule.stored, hmedia]; rfl
      exact .inr ⟨m.query, m.query_ne_nil, Json.isJoined_of_forall_isVisible m.isVisible_query, hquery⟩

namespace Manifest

theorem isPlain_build (tokens : List Text) {version now : Text} (hversion : version.IsJoined)
    (hnow : now.IsJoined) : (build tokens (.text version) now).IsPlain where
  version := ⟨version, hversion, rfl⟩
  generatedAt := ⟨now, hnow, rfl⟩
  critical := by
    have hbaseline (c : CodePoint) (hc : c ∈ baseline) : c.isSurrogate = false :=
      Json.isSurrogate_of_isWrittenChar (forall_mem_baseline c hc)
    exact ⟨baseline, Text.isJoined_of_forall hbaseline, rfl⟩
  tokens := by
    refine List.forall_mem_map.mpr fun e he => ?_
    obtain ⟨b, v, base, u, hparts, -⟩ := resolve?_eq_some_iff.mp (resolve?_of_mem_resolveAll he)
    refine Json.isJoined_of_forall_isVisible fun c hc => ?_
    rcases hparts.mem_token c hc with rfl | htoken
    · rfl
    · exact isVisible_of_isTokenChar htoken
  tokens_nodup := by
    show (((resolveAll tokens).map fun e => (e.1, [e.2.stored])).map Prod.fst).Nodup
    rw [List.map_map]
    show ((resolveAll tokens).map Prod.fst).Nodup
    rw [map_fst_resolveAll]
    exact (nodup_eraseDups tokens).filter _
  rules := by
    refine List.forall_mem_map.mpr fun e he => List.forall_mem_singleton.mpr ?_
    exact isPlain_stored (resolve?_of_mem_resolveAll he)
  names := by
    refine List.forall_mem_map.mpr fun b _ => ⟨b.name, ?_, rfl⟩
    exact Json.isJoined_of_forall_isVisible fun c hc =>
      isVisible_of_isTokenChar (isTokenChar_of_isBracketChar
        (isBracketChar_of_isStemChar (b.isKey_name c hc)))
  names_nodup := by
    have hnames : (Breakpoint.all.map Breakpoint.name).Nodup :=
      List.Nodup.map (fun _ _ => Breakpoint.name_injective) (by decide)
    have htexts : (build tokens (.text version) now).variants.map Prod.fst =
        (Breakpoint.all.map Breakpoint.name).map Scalar.text := rfl
    rw [htexts]
    exact hnames.map fun _ _ h => Scalar.text.inj h
  values := by
    refine List.forall_mem_map.mpr fun b _ => ⟨b.query, ?_, rfl⟩
    exact Json.isJoined_of_forall_isVisible b.isVisible_query

/-- Nothing is lost in a file.  Where the fields of a manifest are texts, and arbitrary texts of
characters are among these, its file is written in visible ASCII characters and line feeds, and
the manifest that is read from it is the same, with all tokens, rules and variants in their
order.  The manifests of lists of tokens are of this kind. -/
theorem load_save :
    (∀ s : Text, (∀ c ∈ s, c.isSurrogate = false) → s.IsJoined) ∧
    (∀ m : Manifest, m.IsPlain →
      (∀ c ∈ m.save, Json.isWrittenChar c = true) ∧ load m.save = .ok m) ∧
    ∀ (tokens : List Text) (version now : Text), version.IsJoined → now.IsJoined →
      (build tokens (.text version) now).IsPlain :=
  ⟨fun _ => Text.isJoined_of_forall,
    fun m hm => ⟨Json.forall_mem_indentedAt 0 m.toJson, hm.load_eq_ok⟩,
    fun tokens _ _ => isPlain_build tokens⟩

/-- A control character, a quote, a backslash, line ends of three kinds and a character beyond the
first plane. -/
def unusualText : Text :=
  "\x01\"\\\r\n\u2028😀"

/-- A manifest with unusual texts, a rule without declarations and a token without rules. -/
def unusualManifest : Manifest where
  version := .text unusualText
  generatedAt := .text []
  rules :=
    [(unusualText, [⟨.text unusualText, .text [], .null⟩, ⟨.text [], .text [], .text unusualText⟩]),
     ([], [])]
  variants := [(.text unusualText, .text [])]
  critical := .text unusualText

theorem load_save_unusual :
    unusualManifest.IsPlain ∧ load unusualManifest.save = .ok unusualManifest ∧
      (build [↑"p-4"] (.text unusualText) unusualText).IsPlain := by
  have hunusual : unusualText.IsJoined := load_save.1 _ (by decide +kernel)
  have hnil : Text.IsJoined [] := load_save.1 _ (List.forall_mem_nil _)
  have hplain : unusualManifest.IsPlain := by
    refine ⟨⟨_, hunusual, rfl⟩, ⟨_, hnil, rfl⟩, ⟨_, hunusual, rfl⟩, ?_, by decide +kernel, ?_, ?_,
      List.nodup_singleton _, ?_⟩
    · simp only [unusualManifest, List.forall_mem_cons]
      exact ⟨hunusual, hnil, List.forall_mem_nil _⟩
    · simp only [unusualManifest, List.forall_mem_cons]
      refine ⟨⟨⟨⟨_, hunusual, rfl⟩, ⟨_, hnil, rfl⟩, .inl rfl⟩, ⟨⟨_, hnil, rfl⟩, ⟨_, hnil, rfl⟩,
        .inr ⟨_, by decide +kernel, hunusual, rfl⟩⟩, List.forall_mem_nil _⟩, ?_⟩
      simp
    · exact List.forall_mem_singleton.mpr ⟨_, hunusual, rfl⟩
    · exact List.forall_mem_singleton.mpr ⟨_, hnil, rfl⟩
  exact ⟨hplain, (load_save.2.1 _ hplain).2, load_save.2.2 _ _ _ hunusual hunusual⟩

end Manifest

end UtilityCss

import Kworker.Terminal.Lemmas.Menu

/-!
# The normaliser of the preferences
-/

namespace Kworker.Terminal

open Kworker.Lib

variable {o : Json} {p q : Prefs} {k : PrefKey} {c : Check} {v : Json}

/-! ## Fields -/

theorem PrefKey.mem_all (k : PrefKey) : k ∈ PrefKey.all := by
  cases k <;> decide

theorem PrefKey.all_nodup : PrefKey.all.Nodup := by decide +kernel

theorem PrefKey.names_spec : (PrefKey.all.map PrefKey.name).Nodup ∧
    ∀ k ∈ PrefKey.all, k.name.all isDigit = false := by decide +kernel

theorem PrefKey.name_injective : Function.Injective PrefKey.name := fun j k h =>
  List.inj_on_of_nodup_map PrefKey.names_spec.1 j.mem_all k.mem_all h

theorem PrefKey.name_not_index (k : PrefKey) : k.name.all isDigit = false :=
  PrefKey.names_spec.2 k k.mem_all

theorem Prefs.get_toJson (p : Prefs) (k : PrefKey) : p.toJson.get k.name = some (p k) :=
  Json.get_ofKeys p PrefKey.name_injective k.mem_all

theorem Prefs.set_self (k : PrefKey) (v : Json) (p : Prefs) : p.set k v k = v := if_pos rfl

theorem Prefs.set_of_ne {j k : PrefKey} (h : j ≠ k) (v : Json) (p : Prefs) : p.set k v j = p j := if_neg h

theorem Prefs.set_eq_self (h : p k = v) : p.set k v = p := by
  funext j
  by_cases hj : j = k
  · rw [hj, set_self, h]
  · exact set_of_ne hj v p

theorem normalizeField_of_ne (hf : k ≠ .copyFormat) (hh : k ≠ .copyAsHtml) (o : Json) :
    normalizeField o k = (check k).run (o.get k.name) := by
  unfold normalizeField
  split
  · exact absurd rfl hf
  · exact absurd rfl hh
  · rfl

theorem copyFormat_cases (o : Json) : copyFormat o = js "html" ∨ copyFormat o = js "plain" := by
  simp only [copyFormat]
  split
  · exact Or.inl rfl
  split
  · exact Or.inr rfl
  split
  · exact Or.inl rfl
  · exact Or.inr rfl

/-! ## Domains -/

theorem mem_default_of_ite {options : List JsString} {d : JsString} (s : JsString) :
    (if s ∈ options then s else d) ∈ d :: options := by
  split
  · rename_i h
    exact List.mem_cons_of_mem _ h
  · exact List.mem_cons_self

/-- What a check returns lies in its domain; a scheme may be an inherited name. -/
theorem Check.run_domain (hc : c ≠ .scheme) (v : Option Json) : c.Domain (c.run v) := by
  cases c with
  | scheme => exact absurd rfl hc
  | boolean d =>
      simp only [run]
      split <;> exact ⟨_, rfl⟩
  | oneOf options d =>
      simp only [run]
      split
      · exact ⟨_, mem_default_of_ite _, rfl⟩
      · exact ⟨d, List.mem_cons_self, rfl⟩
  | clampStr maxLen d h =>
      simp only [run]
      split <;> exact ⟨_, rfl, clampStr_length_le _ _⟩
  | clampInt lo hi d h =>
      obtain ⟨_, hlo, hhi, _⟩ := h
      simp only [run]
      split
      · rename_i n _
        exact ⟨_, rfl, Number.clamp_mem (hlo.trans hhi) n⟩
      · exact ⟨d, rfl, hlo, hhi⟩
  | clampFloat lo hi d h =>
      simp only [run]
      split
      · rename_i n _
        exact ⟨_, rfl, Number.clamp_mem (h.1.trans h.2) n⟩
      · exact ⟨d, rfl, h⟩
  | startupModeIndex =>
      simp only [run]
      split
      · split
        · exact Or.inr rfl
        · exact Or.inl rfl
      · exact Or.inl rfl
  | wordSeparators =>
      simp only [run]
      split
      · split
        · rename_i s hne
          exact ⟨_, rfl, mt (clampStr_eq_nil_iff (by decide)).mp hne, clampStr_length_le _ _⟩
        · exact ⟨_, rfl, by decide⟩
      · exact ⟨_, rfl, by decide⟩
  | newTabMenuItems => exact ⟨_, rfl, normalizeNewTabMenuItems_spec v⟩
  | extensionGenerators => exact ⟨_, rfl⟩
  | fontFamily =>
      simp only [run]
      split
      · split
        · rename_i s hne
          exact ⟨_, rfl, trim_clampStr_trim_ne_nil (by decide) hne, clampStr_length_le _ _⟩
        · exact ⟨_, rfl, by decide, clampStr_length_le _ _⟩
      · exact ⟨_, rfl, by decide, clampStr_length_le _ _⟩
  | cursorColorOverride =>
      simp only [run]
      split
      · split
        · rename_i hhex
          exact ⟨_, rfl, Or.inr hhex⟩
        · exact ⟨_, rfl, Or.inl rfl⟩
      · exact ⟨_, rfl, Or.inl rfl⟩

theorem inherited_not_preset : ∀ s ∈ protoName :: inheritedFunctions, s ∉ presetIds := by decide +kernel

theorem THEME_PRESETS_isSome_iff {s : JsString} :
    (THEME_PRESETS s).isSome = true ↔ s ∈ presetIds ∨ s ∈ protoName :: inheritedFunctions := by
  unfold THEME_PRESETS
  by_cases hpreset : s ∈ presetIds
  · simp [hpreset]
  by_cases hfunction : s ∈ inheritedFunctions
  · simp [hpreset, hfunction]
  by_cases hproto : s = protoName
  · subst hproto
    simp [hpreset, hfunction]
  · simp [hpreset, hfunction, hproto]

theorem Check.scheme_domain_iff {v : Option Json} :
    Check.scheme.Domain (Check.scheme.run v) ↔
      ∀ s, v = some (.string s) → s ∉ protoName :: inheritedFunctions := by
  have hdark : js "dark" ∈ presetIds := by decide
  simp only [Domain, run]
  split
  · rename_i s
    by_cases hin : s ∈ protoName :: inheritedFunctions
    · have hsome : (THEME_PRESETS s).isSome = true := THEME_PRESETS_isSome_iff.mpr (Or.inr hin)
      rw [if_pos hsome]
      constructor
      · rintro ⟨t, ht, he⟩
        cases he
        exact absurd ht (inherited_not_preset s hin)
      · intro h
        exact absurd hin (h s rfl)
    · refine iff_of_true ?_ fun t ht => by cases ht; exact hin
      split
      · rename_i hsome
        exact ⟨s, (THEME_PRESETS_isSome_iff.mp hsome).resolve_right hin, rfl⟩
      · exact ⟨_, hdark, rfl⟩
  · rename_i hne
    exact iff_of_true ⟨_, hdark, rfl⟩ fun s hs => absurd hs (hne s)

/-- Every default passes the check of its field. -/
theorem defaultPrefs_inDomain : defaultPrefs.InDomain := by
  intro k
  by_cases hk : check k = .scheme
  · show (check k).Domain ((check k).run none)
    rw [hk, Check.scheme_domain_iff]
    intro s hs
    cases hs
  · exact Check.run_domain hk none

/-- The checks of these keys belong to no other key. -/
theorem check_injOn (l : PrefKey) (hl : l ∈ [.scheme, .fontFamily, .newTabMenuItems]) (h : check k = check l) :
    k = l := by
  simp only [List.mem_cons, List.not_mem_nil, or_false] at hl
  rcases hl with rfl | rfl | rfl
  · cases k <;> first | rfl | cases h
  · cases k <;> first | rfl | cases h
  · cases k <;> first | rfl | cases h

/-- Only the scheme can leave its domain. -/
theorem normalizeField_domain (hk : k ≠ .scheme) (o : Json) : (check k).Domain (normalizeField o k) := by
  by_cases hf : k = .copyFormat
  · subst hf
    rcases copyFormat_cases o with h | h
    · exact ⟨js "html", by decide, congrArg Json.string h⟩
    · exact ⟨js "plain", by decide, congrArg Json.string h⟩
  by_cases hh : k = .copyAsHtml
  · subst hh
    exact ⟨_, rfl⟩
  rw [normalizeField_of_ne hf hh]
  exact Check.run_domain (fun h => hk (check_injOn .scheme (by decide) h)) _

theorem normalizeField_inDomain_iff (o : Json) :
    Prefs.InDomain (normalizeField o) ↔
      ∀ s, o.get PrefKey.scheme.name = some (.string s) → s ∉ protoName :: inheritedFunctions := by
  have hscheme : (check .scheme).Domain (normalizeField o .scheme) ↔ _ :=
    Check.scheme_domain_iff (v := o.get PrefKey.scheme.name)
  rw [← hscheme]
  constructor
  · intro h
    exact h .scheme
  · intro h k
    by_cases hk : k = .scheme
    · rw [hk]
      exact h
    · exact normalizeField_domain hk o

/-! ## Texts of the fields -/

theorem Check.run_plain (c : Check) (v : Option Json) : (c.run v).Plain := by
  cases c with
  | boolean d => simp only [run]; split <;> exact .bool _
  | oneOf options d => simp only [run]; split <;> exact .string _
  | clampStr maxLen d h => simp only [run]; split <;> exact .string _
  | clampInt lo hi d h => simp only [run]; split <;> exact .number _
  | clampFloat lo hi d h => simp only [run]; split <;> exact .number _
  | startupModeIndex =>
      simp only [run]
      split
      · split <;> exact .number _
      · exact .number _
  | scheme => simp only [run]; split <;> exact .string _
  | wordSeparators => simp only [run]; split <;> exact .string _
  | newTabMenuItems => exact menuJson_plain _
  | extensionGenerators => exact generatorsJson_plain _
  | fontFamily => simp only [run]; split <;> exact .string _
  | cursorColorOverride => simp only [run]; split <;> exact .string _

theorem normalizeField_plain (o : Json) (k : PrefKey) : (normalizeField o k).Plain := by
  unfold normalizeField
  split
  · exact .string _
  · exact .bool _
  · exact Check.run_plain _ _

theorem Check.clampInt_hasText {lo hi d : ℤ} {h} (v : Option Json) :
    ((Check.clampInt lo hi d h).run v).hasText = true := by
  simp only [run]
  split <;> rfl

theorem Check.clampFloat_hasText {lo hi d : ℚ} {h} (v : Option Json) :
    ((Check.clampFloat lo hi d h).run v).hasText = true := by
  simp only [run]
  split <;> rfl

/-- A numeric field is a number once it has been normalised. -/
theorem numeric_hasText (hk : k ∈ numericKeys) (v : Option Json) : ((check k).run v).hasText = true := by
  simp only [numericKeys, List.mem_cons, List.not_mem_nil, or_false] at hk
  rcases hk with rfl | rfl | rfl | rfl | rfl
  · exact Check.clampInt_hasText v
  · exact Check.clampFloat_hasText v
  · exact Check.clampFloat_hasText v
  · exact Check.clampInt_hasText v
  · exact Check.clampInt_hasText v

/-- Preferences that a text can hold and the normaliser can read. -/
structure Prefs.Readable (p : Prefs) : Prop where
  plain : ∀ k, (p k).Plain
  text : ∀ k ∈ numericKeys, (p k).hasText = true

theorem normalizeField_readable (o : Json) : Prefs.Readable (normalizeField o) where
  plain := normalizeField_plain o
  text k hk := by
    have hf : k ≠ .copyFormat := by rintro rfl; exact absurd hk (by decide)
    have hh : k ≠ .copyAsHtml := by rintro rfl; exact absurd hk (by decide)
    rw [normalizeField_of_ne hf hh]
    exact numeric_hasText hk _

theorem Prefs.Readable.toJson (h : p.Readable) : p.toJson.Plain :=
  Json.plain_ofKeys PrefKey.all_nodup PrefKey.name_injective PrefKey.name_not_index fun k _ => h.plain k

theorem Prefs.Readable.set (h : p.Readable) (hplain : v.Plain) (htext : v.hasText = true) :
    (p.set k v).Readable where
  plain j := by
    by_cases hj : j = k
    · rw [hj, set_self]
      exact hplain
    · rw [set_of_ne hj]
      exact h.plain j
  text j hmem := by
    by_cases hj : j = k
    · rw [hj, set_self]
      exact htext
    · rw [set_of_ne hj]
      exact h.text j hmem

theorem Prefs.Readable.normalizePrefs (h : p.Readable) :
    Terminal.normalizePrefs p.toJson = some (normalizeField p.toJson) := by
  have hobject : p.toJson.isObject = true := rfl
  have hnormalizable : normalizable p.toJson = true := by
    rw [normalizable, List.all_eq_true]
    intro k hk
    rw [p.get_toJson]
    exact h.text k hk
  rw [Terminal.normalizePrefs, if_pos hobject, if_pos hnormalizable]

/-! ## Fixed points -/

/-- The fields that the normaliser reads back as they are. -/
structure Prefs.Fixed (p : Prefs) : Prop where
  fields : ∀ k, k ≠ .copyFormat → k ≠ .copyAsHtml → (check k).run (some (p k)) = p k
  copyFormat : p .copyFormat = .string (Terminal.copyFormat p.toJson)
  copyAsHtml : p .copyAsHtml = .bool (Terminal.copyFormat p.toJson = js "html")

theorem normalizeField_of_normalized (h : p.Normalized) : normalizeField p.toJson = p := by
  have hsome : normalizePrefs p.toJson = some p := h
  have hobject : p.toJson.isObject = true := rfl
  rw [normalizePrefs, if_pos hobject, Option.ite_none_right_eq_some] at hsome
  exact Option.some.inj hsome.2

theorem Prefs.Normalized.readable (h : p.Normalized) : p.Readable :=
  normalizeField_of_normalized h ▸ normalizeField_readable p.toJson

theorem Prefs.normalized_iff : p.Normalized ↔ p.Fixed := by
  have hfield (k : PrefKey) (hf : k ≠ .copyFormat) (hh : k ≠ .copyAsHtml) :
      normalizeField p.toJson k = (check k).run (some (p k)) := by
    rw [normalizeField_of_ne hf hh, p.get_toJson]
  constructor
  · intro h
    have heq := normalizeField_of_normalized h
    refine ⟨fun k hf hh => ?_, ?_, ?_⟩
    · rw [← hfield k hf hh]
      exact congrFun heq k
    · exact (congrFun heq .copyFormat).symm
    · exact (congrFun heq .copyAsHtml).symm
  · intro h
    have heq : normalizeField p.toJson = p := by
      funext k
      by_cases hf : k = .copyFormat
      · rw [hf]
        exact h.copyFormat.symm
      by_cases hh : k = .copyAsHtml
      · rw [hh]
        exact h.copyAsHtml.symm
      rw [hfield k hf hh, h.fields k hf hh]
    have hreadable : p.Readable := heq ▸ normalizeField_readable p.toJson
    exact hreadable.normalizePrefs.trans (congrArg some heq)

theorem Prefs.Normalized.fixed (h : p.Normalized) : p.Fixed := Prefs.normalized_iff.mp h

theorem copyFormat_congr (hf : p .copyFormat = q .copyFormat) (hh : p .copyAsHtml = q .copyAsHtml) :
    copyFormat p.toJson = copyFormat q.toJson := by
  simp only [copyFormat, Prefs.get_toJson, hf, hh]

/-- Setting one field keeps the preferences normal exactly if the value is read back as it is. -/
theorem Prefs.Normalized.set_iff (h : p.Normalized) (hf : k ≠ .copyFormat) (hh : k ≠ .copyAsHtml) (v : Json) :
    (p.set k v).Normalized ↔ (check k).run (some v) = v := by
  have hcopy : copyFormat (p.set k v).toJson = copyFormat p.toJson :=
    copyFormat_congr (Prefs.set_of_ne hf.symm v p) (Prefs.set_of_ne hh.symm v p)
  rw [Prefs.normalized_iff]
  constructor
  · intro hset
    have := hset.fields k hf hh
    rwa [Prefs.set_self] at this
  · intro hv
    refine ⟨fun j hjf hjh => ?_, ?_, ?_⟩
    · by_cases hj : j = k
      · rw [hj, Prefs.set_self, hv]
      · rw [Prefs.set_of_ne hj, h.fixed.fields j hjf hjh]
    · rw [Prefs.set_of_ne hf.symm, hcopy]
      exact h.fixed.copyFormat
    · rw [Prefs.set_of_ne hh.symm, hcopy]
      exact h.fixed.copyAsHtml

theorem parseInt_intJson {z : ℤ} (h0 : 0 ≤ z) (h : z ≤ 100) : (intJson z).parseInt = some (.finite z) :=
  parseIntNumber_intCast h0 (by omega)

theorem noBlankEnds_of_hexColor {s : JsString} (h : isHexColor s = true) : NoBlankEnds s := by
  cases s with
  | nil => cases h
  | cons d digits =>
      unfold isHexColor at h
      split at h
      · rename_i ds he
        cases he
        obtain ⟨hlen, hall⟩ := Bool.and_eq_true_iff.mp h
        refine ⟨fun c hc => ?_, fun c hc => ?_⟩
        · cases hc
          rfl
        · have hne : digits ≠ [] := by rintro rfl; cases hlen
          rw [List.getLast?_cons_of_ne_nil hne] at hc
          exact isBlank_of_isHexDigit (List.all_eq_true.mp hall c (List.mem_of_getLast? hc))
      · cases h

/-- What lies in the domain of a field is read back, the font's name and the menu apart. -/
theorem Check.run_of_domain (hdom : c.Domain v) (hfont : c ≠ .fontFamily) (hmenu : c ≠ .newTabMenuItems) :
    c.run (some v) = v := by
  cases c with
  | fontFamily => exact absurd rfl hfont
  | newTabMenuItems => exact absurd rfl hmenu
  | boolean d =>
      obtain ⟨b, rfl⟩ := hdom
      rfl
  | oneOf options d =>
      obtain ⟨s, hs, rfl⟩ := hdom
      show Json.string (if s ∈ options then s else d) = .string s
      split
      · rfl
      · rename_i hnot
        rw [(List.mem_cons.mp hs).resolve_right hnot]
  | clampStr maxLen d h =>
      obtain ⟨s, rfl, hlen⟩ := hdom
      exact congrArg Json.string (clampStr_of_le hlen)
  | clampInt lo hi d h =>
      obtain ⟨z, rfl, hlo, hhi⟩ := hdom
      have hparse : (some (intJson z)).bind Json.parseInt = some (.finite z) :=
        parseInt_intJson (h.1.trans hlo) (hhi.trans h.2.2.2)
      simp only [run, hparse, Number.clamp_finite hlo hhi]
  | clampFloat lo hi d h =>
      obtain ⟨q, rfl, hlo, hhi⟩ := hdom
      have hparse : (some (Json.number (.finite q))).bind Json.parseFloat = some (.finite q) := rfl
      simp only [run, hparse, Number.clamp_finite hlo hhi]
  | startupModeIndex =>
      rcases hdom with rfl | rfl
      · rfl
      · rfl
  | scheme =>
      obtain ⟨s, hs, rfl⟩ := hdom
      have hsome : (THEME_PRESETS s).isSome = true := THEME_PRESETS_isSome_iff.mpr (Or.inl hs)
      exact congrArg Json.string (if_pos hsome)
  | wordSeparators =>
      obtain ⟨s, rfl, hne, hlen⟩ := hdom
      show Json.string (if s ≠ [] then Terminal.clampStr s 500 else defaultWordSeparators) = .string s
      rw [if_pos hne, clampStr_of_le hlen]
  | extensionGenerators =>
      obtain ⟨r, rfl⟩ := hdom
      exact congrArg generatorsJson (normalizeExtensionGenerators_json r)
  | cursorColorOverride =>
      obtain ⟨s, rfl, hs⟩ := hdom
      show Json.string (if isHexColor (trim s) then trim s else []) = .string s
      rcases hs with rfl | hs
      · rfl
      · rw [(noBlankEnds_of_hexColor hs).trim_eq, if_pos hs]

/-- A font's name is read back exactly if it is not empty and does not begin or end with a blank. -/
theorem Check.fontFamily_run_iff {s : JsString} (hlen : s.length ≤ 120) :
    Check.fontFamily.run (some (.string s)) = .string s ↔ s ≠ [] ∧ NoBlankEnds s := by
  show Json.string (Terminal.clampStr (if trim s ≠ [] then trim s else defaultFontFamily) 120) = .string s ↔ _
  rw [Json.string.injEq]
  by_cases htrim : trim s = []
  · rw [if_neg (not_not.mpr htrim)]
    refine iff_of_false (fun h => ?_) fun ⟨hne, hends⟩ => hne (by rw [← hends.trim_eq, htrim])
    rw [← h] at htrim
    exact absurd htrim (by decide)
  · rw [if_pos htrim, clampStr_of_le ((trim_length_le s).trans hlen), trim_eq_self_iff]
    refine ⟨fun h => ⟨?_, h⟩, fun h => h.2⟩
    rintro rfl
    exact htrim rfl

theorem Check.menu_run {items : List MenuItem} (h : ∀ i ∈ items, i.Short) :
    Check.newTabMenuItems.run (some (Check.newTabMenuItems.run (some (menuJson items)))) =
      Check.newTabMenuItems.run (some (menuJson items)) :=
  congrArg menuJson (normalizeNewTabMenuItems_of_short h)

theorem defaultPrefs_normalized : defaultPrefs.Normalized := by
  rw [Prefs.normalized_iff]
  refine ⟨fun k _ _ => ?_, ?_, ?_⟩
  · by_cases hfont : check k = .fontFamily
    · show (check k).run (some ((check k).run none)) = (check k).run none
      rw [hfont]
      exact (Check.fontFamily_run_iff (by decide)).mpr ⟨by decide, trim_eq_self_iff.mp rfl⟩
    by_cases hmenu : check k = .newTabMenuItems
    · show (check k).run (some ((check k).run none)) = (check k).run none
      rw [hmenu]
      rfl
    · exact Check.run_of_domain (defaultPrefs_inDomain k) hfont hmenu
  · simp only [copyFormat, Prefs.get_toJson]
    rfl
  · simp only [copyFormat, Prefs.get_toJson]
    rfl

end Kworker.Terminal

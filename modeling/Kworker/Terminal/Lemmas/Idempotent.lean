import Kworker.Terminal.Lemmas.Prefs

/-!
# When normalising once is enough
-/

namespace Kworker.Terminal

open Kworker.Lib

variable {c : Check}

/-! ## Texts that are trimmed and cut -/

theorem cleanCut_iff {s : JsString} {n : Nat} (hn : 0 < n) :
    CleanCut n s ↔ NoBlankEnds (clampStr (trim s) n) := by
  rw [CleanCut, clampStr_eq_take]
  by_cases hlen : (trim s).length ≤ n
  · rw [List.take_of_length_le hlen]
    exact iff_of_true (fun h => absurd h (not_lt.mpr hlen)) (noBlankEnds_trim s)
  have hlt : n < (trim s).length := not_le.mp hlen
  have hlast : ((trim s).take n).getLast? = (trim s)[n - 1]? := by
    rw [List.getLast?_eq_getElem?, List.length_take_of_le hlt.le, List.getElem?_take_of_lt (by omega)]
  constructor
  · intro h
    refine ⟨fun c hc => ?_, fun c hc => ?_⟩
    · rw [List.head?_take, if_neg hn.ne'] at hc
      exact (noBlankEnds_trim s).1 c hc
    · rw [hlast] at hc
      exact h hlt c hc
  · intro h _ c hc
    exact h.2 c (hlast.trans hc)

/-! ## The menu -/

theorem Profile.text_injective : Function.Injective Profile.text := by
  intro p q h
  cases p <;> cases q <;> first | rfl | exact absurd h (by decide)

theorem MenuItem.toJson_injective : Function.Injective MenuItem.toJson := by
  intro i j h
  cases i <;> cases j <;> simp only [toJson, Json.object.injEq, List.cons.injEq, Prod.mk.injEq,
    Json.string.injEq, reduceCtorEq, and_false, true_and, and_true] at h
  case remaining.remaining | separator.separator => rfl
  case folder.folder => rw [h]
  case profile.profile => rw [Profile.text_injective h]
  case folder.profile | profile.folder => exact absurd h.1 (by decide)
  all_goals exact absurd h (by decide)

theorem menuJson_injective : Function.Injective menuJson := by
  intro items items' h
  exact List.map_injective_iff.mpr MenuItem.toJson_injective (Json.array.inj h)

theorem readMenuItem_ne_remaining {it : Json} (hkind : it.get (js "kind") = some (.string (js "folder")))
    (s : JsString) (hname : it.get (js "name") = some (.string s)) : readMenuItem it =
      if clampStr (trim s) 64 = [] then none else some (.folder (clampStr (trim s) 64)) := by
  simp only [readMenuItem, hkind, hname]
  rfl

theorem readMenuItem_eq_folder {it : Json} {name : JsString} (h : readMenuItem it = some (.folder name)) :
    it.get (js "kind") = some (.string (js "folder")) ∧
    ∃ s, it.get (js "name") = some (.string s) ∧ clampStr (trim s) 64 = name := by
  simp only [readMenuItem] at h
  split at h
  · cases h
  split at h
  · cases h
  split at h
  · rename_i hkind
    split at h
    · rename_i s hname
      rw [Option.ite_none_left_eq_some] at h
      obtain ⟨_, h⟩ := h
      cases h
      refine ⟨?_, s, hname, rfl⟩
      unfold isText at hkind
      split at hkind
      · rename_i t ht
        rw [ht, eq_of_beq hkind]
      · cases hkind
    · cases h
  split at h
  · obtain ⟨p, _, hp⟩ := Option.map_eq_some_iff.mp h
    cases hp
  · cases h

theorem mem_collectMenuItems {raw : List Json} {it : Json} {i : MenuItem} (hit : it ∈ raw)
    (hread : readMenuItem it = some i) (hi : i ≠ .remaining) (seen : Bool) :
    i ∈ collectMenuItems seen raw := by
  induction raw generalizing seen with
  | nil => cases hit
  | cons first raw ih =>
      rw [collectMenuItems]
      rcases List.mem_cons.mp hit with rfl | hit
      · rw [hread]
        cases i with
        | remaining => exact absurd rfl hi
        | separator | folder name | profile p => exact List.mem_cons_self
      · split
        · exact ih hit seen
        · split
          · exact ih hit seen
          · exact List.mem_cons_of_mem _ (ih hit true)
        · exact List.mem_cons_of_mem _ (ih hit seen)

/-- The list is read back exactly if each of its entries is. -/
theorem menu_fixed_iff (v : Option Json) :
    normalizeNewTabMenuItems (some (menuJson (normalizeNewTabMenuItems v))) = normalizeNewTabMenuItems v ↔
      ∀ i ∈ normalizeNewTabMenuItems v, i.Fits := by
  obtain ⟨hwell, hcount⟩ := normalizeNewTabMenuItems_spec v
  constructor
  · intro h
    rw [← h]
    refine collectMenuItems_forall trivial (fun it hit i hread => ?_) false
    obtain ⟨j, hj, rfl⟩ := List.mem_map.mp hit
    exact (hwell j hj).short.read_fits hread
  · intro h
    exact collectMenuItems_of_fits h hcount

theorem menu_fits_iff (v : Option Json) : (∀ i ∈ normalizeNewTabMenuItems v, i.Fits) ↔
    ∀ items, v = some (.array items) → ∀ it ∈ items,
      it.get (js "kind") = some (.string (js "folder")) →
        ∀ s, it.get (js "name") = some (.string s) → CleanCut 64 s := by
  constructor
  · rintro h items rfl it hit hkind s hname
    rw [cleanCut_iff (by decide)]
    have hread := readMenuItem_ne_remaining hkind s hname
    by_cases hnil : clampStr (trim s) 64 = []
    · rw [hnil]
      exact ⟨nofun, nofun⟩
    · rw [if_neg hnil] at hread
      exact (h _ (mem_collectMenuItems hit hread nofun false)).2.1
  · intro h
    have hread (items : List Json) (hv : v = some (.array items)) (it : Json) (hit : it ∈ items)
        (i : MenuItem) (hread : readMenuItem it = some i) : i.Fits := by
      cases i with
      | remaining | separator | profile p => trivial
      | folder name =>
          obtain ⟨hkind, s, hname, rfl⟩ := readMenuItem_eq_folder hread
          obtain ⟨htrim, hlen⟩ := readMenuItem_wellFormed hread
          have hends := (cleanCut_iff (by decide)).mp (h items hv it hit hkind s hname)
          exact ⟨fun hnil => htrim (by rw [hnil]; rfl), hends, hlen⟩
    unfold normalizeNewTabMenuItems
    split
    · exact collectMenuItems_forall trivial (hread _ rfl) false
    · exact collectMenuItems_forall trivial nofun false

/-! ## The fields -/

theorem Check.scheme_run_run (v : Option Json) :
    Check.scheme.run (some (Check.scheme.run v)) = Check.scheme.run v := by
  have hdark : (THEME_PRESETS (js "dark")).isSome = true := by decide
  have hkept : ∃ s, (THEME_PRESETS s).isSome = true ∧ Check.scheme.run v = .string s := by
    simp only [run]
    split
    · split
      · rename_i s hsome
        exact ⟨s, hsome, rfl⟩
      · exact ⟨_, hdark, rfl⟩
    · exact ⟨_, hdark, rfl⟩
  obtain ⟨s, hsome, hrun⟩ := hkept
  rw [hrun]
  exact congrArg Json.string (if_pos hsome)

theorem Check.fontFamily_fixed_iff (v : Option Json) :
    Check.fontFamily.run (some (Check.fontFamily.run v)) = Check.fontFamily.run v ↔
      ∀ s, v = some (.string s) → CleanCut 120 s := by
  have hdefault : NoBlankEnds (Terminal.clampStr defaultFontFamily 120) := trim_eq_self_iff.mp rfl
  have hne : Terminal.clampStr defaultFontFamily 120 ≠ [] := by decide
  have hother (h : Check.fontFamily.run v = .string (Terminal.clampStr defaultFontFamily 120)) :
      Check.fontFamily.run (some (Check.fontFamily.run v)) = Check.fontFamily.run v := by
    rw [h]
    exact (fontFamily_run_iff (clampStr_length_le _ _)).mpr ⟨hne, hdefault⟩
  by_cases hv : ∃ s, v = some (.string s)
  · obtain ⟨s, rfl⟩ := hv
    by_cases htrim : trim s = []
    · refine iff_of_true (hother ?_) ?_
      · simp only [run, htrim, ne_eq, not_true_eq_false, if_false]
      · rintro t ht hlen
        cases ht
        rw [htrim] at hlen
        cases hlen
    · have hrun : Check.fontFamily.run (some (.string s)) = .string (Terminal.clampStr (trim s) 120) := by
        simp only [run, ne_eq, htrim, not_false_eq_true, if_true]
      rw [hrun, fontFamily_run_iff (clampStr_length_le _ _), ← cleanCut_iff (by decide)]
      constructor
      · rintro ⟨_, h⟩ t ht
        cases ht
        exact h
      · intro h
        exact ⟨mt (clampStr_eq_nil_iff (by decide)).mp htrim, h s rfl⟩
  · refine iff_of_true (hother ?_) fun s hs => absurd ⟨s, hs⟩ hv
    simp only [run]
    split
    · rename_i s
      exact absurd ⟨s, rfl⟩ hv
    · rfl

theorem Check.menu_fixed_iff (v : Option Json) :
    Check.newTabMenuItems.run (some (Check.newTabMenuItems.run v)) = Check.newTabMenuItems.run v ↔
      ∀ items, v = some (.array items) → ∀ it ∈ items,
        it.get (js "kind") = some (.string (js "folder")) →
          ∀ s, it.get (js "name") = some (.string s) → CleanCut 64 s := by
  rw [← menu_fits_iff, ← Terminal.menu_fixed_iff]
  exact menuJson_injective.eq_iff

theorem Check.run_run (hfont : c ≠ .fontFamily) (hmenu : c ≠ .newTabMenuItems) (v : Option Json) :
    c.run (some (c.run v)) = c.run v := by
  by_cases hscheme : c = .scheme
  · rw [hscheme]
    exact scheme_run_run v
  · exact run_of_domain (run_domain hscheme v) hfont hmenu

/-- What is normalised once is normal exactly if no name is cut at a blank. -/
theorem normalizeField_normalized_iff (o : Json) :
    Prefs.Normalized (normalizeField o) ↔ CleanNames o := by
  have hfield {k : PrefKey} (hf : k ≠ .copyFormat) (hh : k ≠ .copyAsHtml) :=
    normalizeField_of_ne hf hh o
  rw [Prefs.normalized_iff]
  constructor
  · intro h
    have hfont := h.fields .fontFamily (by decide) (by decide)
    have hmenu := h.fields .newTabMenuItems (by decide) (by decide)
    rw [hfield (by decide) (by decide)] at hfont hmenu
    exact ⟨(Check.fontFamily_fixed_iff _).mp hfont, (Check.menu_fixed_iff _).mp hmenu⟩
  · rintro ⟨hfont, hmenu⟩
    have hcopy : copyFormat (Prefs.toJson (normalizeField o)) = copyFormat o := by
      have hget : (Prefs.toJson (normalizeField o)).get PrefKey.copyFormat.name =
        some (.string (copyFormat o)) := Prefs.get_toJson _ _
      rw [copyFormat, hget]
      rcases copyFormat_cases o with h | h
      · rw [h]
        rfl
      · rw [h]
        rfl
    refine ⟨fun k hf hh => ?_, ?_, ?_⟩
    · rw [hfield hf hh]
      by_cases hkf : k = .fontFamily
      · rw [hkf]
        exact (Check.fontFamily_fixed_iff _).mpr hfont
      by_cases hkm : k = .newTabMenuItems
      · rw [hkm]
        exact (Check.menu_fixed_iff _).mpr hmenu
      · exact Check.run_run (fun h => hkf (check_injOn .fontFamily (by decide) h))
          (fun h => hkm (check_injOn .newTabMenuItems (by decide) h)) _
    · rw [hcopy]
      rfl
    · rw [hcopy]
      rfl

end Kworker.Terminal

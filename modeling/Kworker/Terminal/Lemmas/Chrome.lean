import Kworker.Terminal.Chrome
import Kworker.Terminal.Lemmas.Load

/-!
# What the stored scheme makes light
-/

namespace Kworker.Terminal

open Kworker.Lib

variable {Text : Type} {J : JsonText Text} {c : Channels Text}

theorem isText_iff {s : JsString} {v : Option Json} : isText s v = true ↔ v = some (.string s) := by
  unfold isText
  split
  · rw [beq_iff_eq, Option.some.injEq, Json.string.injEq]
  · rename_i hne
    exact iff_of_false Bool.false_ne_true fun h => hne s h

theorem isLightUiScheme_iff {v : Json} : isLightUiScheme v = true ↔ ∃ s ∈ lightUiSchemes, v = .string s := by
  simp only [isLightUiScheme, List.any_eq_true, isText_iff, Option.some.injEq]

theorem light_preset : ∀ s ∈ lightUiSchemes, (THEME_PRESETS s).isSome = true := by decide +kernel

/-- Normalising keeps a light scheme, and makes none. -/
theorem scheme_light_iff (v : Option Json) :
    isLightUiScheme (Check.scheme.run v) = true ↔ ∃ s ∈ lightUiSchemes, v = some (.string s) := by
  have hdark : ¬ isLightUiScheme (.string (js "dark")) = true := by decide
  simp only [Check.run]
  split
  · rename_i s
    split
    · rw [isLightUiScheme_iff]
      simp
    · rename_i hnone
      refine iff_of_false hdark ?_
      rintro ⟨t, ht, h⟩
      cases h
      exact hnone (light_preset s ht)
  · rename_i hne
    refine iff_of_false hdark ?_
    rintro ⟨t, _, rfl⟩
    exact hne t rfl

theorem normalizedOf_light_iff (v : Json) : isLightUiScheme (normalizedOf v .scheme) = true ↔
    ∃ s ∈ lightUiSchemes, v.get PrefKey.scheme.name = some (.string s) := by
  rw [← scheme_light_iff]
  unfold normalizedOf
  split
  · rfl
  · rename_i hobject
    rw [get_of_not_object (eq_false_of_ne_true hobject)]
    rfl

theorem appChromeScheme_iff (p : Prefs) :
    appChromeScheme p = "lightcream" ↔ isLightUiScheme (p .scheme) = true := by
  unfold appChromeScheme
  split
  · rename_i h
    exact iff_of_true rfl h
  · rename_i h
    exact iff_of_false (by decide) h

/-- The page is light when the text holds a light scheme and can be normalised. -/
theorem page_light_iff : appChromeScheme (loadPrefs J c defaultPrefs) = "lightcream" ↔
    ∃ v, loaded J c = some v ∧ ∃ s ∈ lightUiSchemes, v.get PrefKey.scheme.name = some (.string s) := by
  rw [appChromeScheme_iff, loadPrefs_eq]
  cases loaded J c with
  | none => exact iff_of_false (by decide) (by rintro ⟨v, h, _⟩; cases h)
  | some v =>
      show isLightUiScheme (normalizedOf v .scheme) = true ↔ _
      rw [normalizedOf_light_iff]
      simp

theorem shell_light_iff (json : Text) : shellColorFromJson J json = SHELL_LIGHT ↔
    J.isEmpty json = false ∧ ∃ v, J.parse json = some v ∧
      v.get PrefKey.scheme.name = some (.string (js "lightcream")) := by
  have hne : SHELL_DARK ≠ SHELL_LIGHT := by decide
  unfold shellColorFromJson
  cases J.isEmpty json with
  | true => simp [hne]
  | false =>
      cases hparse : J.parse json with
      | none => simp [hne]
      | some v =>
          simp only [Bool.false_eq_true, if_false, true_and, Option.some.injEq, exists_eq_left']
          rw [← isText_iff]
          split
          · rename_i h
            exact iff_of_true rfl h
          · rename_i h
            exact iff_of_false hne h

end Kworker.Terminal

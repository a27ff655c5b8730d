import Kworker.Terminal.Load
import Kworker.Terminal.Lemmas.Prefs
import Kworker.Terminal.Lemmas.Ui

/-!
# Loading, saving and starting
-/

namespace Kworker.Terminal

open Kworker.Lib

variable {Text : Type} {J : JsonText Text} {c : Channels Text} {p q : Prefs} {s t : Stores Text} {a : Save}
  {w v : Web} {strerror : Posix.Errno → String} {start : StartCalls}

/-! ## The normaliser on stored values -/

/-- What `normalizePrefs` makes of a value on which it does not throw. -/
def normalizedOf (v : Json) : Prefs := if v.isObject then normalizeField v else defaultPrefs

theorem get_of_not_object {v : Json} (h : v.isObject = false) (name : JsString) : v.get name = none := by
  cases v with
  | object fields => cases h
  | null => rfl
  | bool b => rfl
  | number n => rfl
  | string s => rfl
  | array items => rfl

theorem normalizePrefs_eq (v : Json) :
    normalizePrefs v = if normalizable v then some (normalizedOf v) else none := by
  unfold normalizePrefs normalizedOf
  cases hobj : v.isObject with
  | true => rfl
  | false =>
      have hnorm : normalizable v = true := by
        rw [normalizable, List.all_eq_true]
        intro k _
        rw [get_of_not_object hobj]
        rfl
      rw [hnorm]
      rfl

theorem normalizedOf_inDomain_iff (v : Json) : (normalizedOf v).InDomain ↔ SchemeNotInherited v := by
  unfold normalizedOf
  cases hobj : v.isObject with
  | true => exact normalizeField_inDomain_iff v
  | false =>
      refine iff_of_true defaultPrefs_inDomain fun s hs => ?_
      rw [get_of_not_object hobj] at hs
      cases hs

theorem normalizedOf_domain {k : PrefKey} (hk : k ≠ .scheme) (v : Json) :
    (check k).Domain (normalizedOf v k) := by
  unfold normalizedOf
  split
  · exact normalizeField_domain hk v
  · exact defaultPrefs_inDomain k

theorem loadPrefs_eq (c : Channels Text) (p : Prefs) :
    loadPrefs J c p = ((loaded J c).map normalizedOf).getD p := by
  unfold loadPrefs loaded assignPrefs
  cases J.isEmpty (rawPrefs J c) with
  | true => rfl
  | false =>
      cases hparse : J.parse (rawPrefs J c) with
      | none => rfl
      | some v =>
          show (normalizePrefs v).getD p = (((some v).filter normalizable).map normalizedOf).getD p
          rw [normalizePrefs_eq, Option.filter_some]
          cases normalizable v <;> rfl

theorem loadPrefs_congr {c d : Channels Text} (h : rawPrefs J c = rawPrefs J d) (p : Prefs) :
    loadPrefs J c p = loadPrefs J d p := by
  unfold loadPrefs
  rw [h]

theorem loadPrefs_twice (c : Channels Text) (p : Prefs) : loadPrefs J c (loadPrefs J c p) = loadPrefs J c p := by
  rw [loadPrefs_eq, loadPrefs_eq]
  cases loaded J c <;> rfl

/-! ## The two stores -/

theorem rawPrefs_atPageEnd (s : Stores Text) :
    rawPrefs J s.atPageEnd = if J.isEmpty s.native = false then s.native else s.localStorage := by
  unfold rawPrefs Stores.atPageEnd
  split
  · rfl
  · rfl

theorem not_isEmpty_empty : ¬J.isEmpty J.empty = false := by
  rw [J.isEmpty_empty]
  decide

theorem rawPrefs_atLoad (s : Stores Text) : rawPrefs J (s.atLoad J) = rawPrefs J s.atPageEnd := by
  rw [rawPrefs_atPageEnd]
  unfold rawPrefs Stores.atLoad
  rw [if_neg not_isEmpty_empty]

theorem nextStart_eq (s : Stores Text) : nextStart J s = loadPrefs J s.atPageEnd defaultPrefs := by
  unfold nextStart
  rw [loadPrefs_congr (rawPrefs_atLoad s), loadPrefs_twice]

theorem yieldsLatest_iff : s.YieldsLatest J ↔ rawPrefs J s.atPageEnd = s.latest := by
  refine ⟨fun h => h.text, fun h => ⟨h, ?_⟩⟩
  rw [nextStart_eq]
  cases hlatest : J.isEmpty s.latest with
  | false =>
      refine loadPrefs_congr ?_ _
      rw [h]
      exact (if_pos hlatest).symm
  | true =>
      have hraw : rawPrefs J ⟨s.latest, J.empty, J.empty⟩ = J.empty := by
        unfold rawPrefs
        rw [hlatest, if_neg (by decide), if_neg not_isEmpty_empty]
      unfold loadPrefs
      rw [hraw, h, if_pos hlatest, if_pos J.isEmpty_empty]

theorem initial_yieldsLatest : (Stores.initial J).YieldsLatest J := by
  rw [yieldsLatest_iff, rawPrefs_atPageEnd]
  split
  · rfl
  · rfl

theorem step_yieldsLatest_iff (hs : s.YieldsLatest J) (h : (saves J).step s a = some t) :
    t.YieldsLatest J ↔ a.KeepsNative J s := by
  have hsave : t = savePrefs J a.prefs a.localWrite a.native s := (Option.some.inj h).symm
  have hraw := hs.text
  rw [rawPrefs_atPageEnd] at hraw
  have hjson : J.isEmpty (J.stringify a.prefs.toJson) = false := J.isEmpty_stringify _
  rw [hsave, yieldsLatest_iff, rawPrefs_atPageEnd]
  unfold savePrefs Save.KeepsNative
  by_cases hnative : a.native = .written
  · simp [hnative, hjson]
  cases hlocal : a.localWrite with
  | false => simpa [hnative] using hraw
  | true =>
      cases hempty : J.isEmpty s.native with
      | true => simp [hnative, hempty]
      | false => simp [hnative, hempty]

/-! ## The runtime -/

theorem themeForTerminal_isSome (h : p.InDomain) : (themeForTerminal p).isSome = true := by
  obtain ⟨s, hs, hscheme⟩ := h .scheme
  have hpreset : THEME_PRESETS (textOf (p .scheme)) = some (.preset s) := by
    rw [hscheme]
    exact if_pos hs
  simp only [themeForTerminal, hpreset]
  rfl

theorem applyChromeTypography_eq (h : (check .fontSize).run (some (p .fontSize)) = p .fontSize) :
    applyChromeTypography p = p := Prefs.set_eq_self h.symm

theorem applyPrefsToRuntime_inDomain (h : w.prefs.InDomain) :
    ∃ v, applyPrefsToRuntime w = some v ∧ v.prefs = w.prefs ∧ v.ui = w.ui := by
  have hfont : applyChromeTypography w.prefs = w.prefs :=
    applyChromeTypography_eq (Check.run_of_domain (h .fontSize) (by rintro ⟨⟩) (by rintro ⟨⟩))
  obtain ⟨theme, htheme⟩ := Option.isSome_iff_exists.mp (themeForTerminal_isSome h)
  simp only [applyPrefsToRuntime, hfont, htheme]
  exact ⟨_, rfl, rfl, rfl⟩

theorem createShellTab_inDomain (strerror : Posix.Errno → String) (start : StartCalls) (h : w.prefs.InDomain) :
    ∃ profile position v, createShellTab strerror start w = some v ∧ v.prefs = w.prefs ∧
      v.ui = createTab strerror profile start
        { w.ui with page := { w.ui.page with newTabPosition := position } } := by
  obtain ⟨theme, htheme⟩ := Option.isSome_iff_exists.mp (themeForTerminal_isSome h)
  unfold createShellTab
  rw [htheme]
  exact ⟨_, _, _, rfl, rfl, rfl⟩

/-- The first tab is the only one. -/
theorem insertShellTabInStrip_of_nil {p : Page} (h : p.tabs = []) (tab : Tab) :
    (insertShellTabInStrip p tab).tabs = [tab] := by
  unfold insertShellTabInStrip
  split
  · rw [h]
  split
  · have hactive : getActiveTab p = none := by
      unfold getActiveTab
      rw [h]
      rfl
    simp only [hactive, h, Option.bind_none, List.nil_append]
  · simp only [h, List.nil_append]

theorem createTab_shellTabs {u : Ui} (h : u.page.tabs = []) (profile : String) :
    (createTab strerror profile start u).page.tabs.countP (·.kind = .shell) = 1 := by
  obtain ⟨id, hpage⟩ := createTab_page strerror profile start u
  rw [hpage, countP_kind_of_face (setSession_face _ _ _)]
  unfold Page.withShell switchTab
  rw [insertShellTabInStrip_of_nil (p := { u.page with nextTabKey := u.page.nextTabKey + 1 }) h]
  rfl

theorem wtBootstrap_inDomain (strerror : Posix.Errno → String) (start : StartCalls)
    (h : (loadPrefs J c w.prefs).InDomain) :
    ∃ v, wtBootstrap J strerror c start w = some v ∧ v.prefs = loadPrefs J c w.prefs ∧
      (w.ui.page.tabs = [] → v.shellTabs = 1) ∧ (w.ui.page.tabs ≠ [] → v.ui = w.ui) := by
  obtain ⟨w', happly, hprefs, hui⟩ := applyPrefsToRuntime_inDomain (w := { w with prefs := loadPrefs J c w.prefs }) h
  unfold wtBootstrap
  rw [happly, Option.bind_some, hui]
  by_cases htabs : w.ui.page.tabs = []
  · have hdom : w'.prefs.InDomain := by rw [hprefs]; exact h
    obtain ⟨profile, position, v, hcreate, hsame, htab⟩ := createShellTab_inDomain strerror start hdom
    rw [if_pos (List.length_eq_zero_iff.mpr htabs), hcreate]
    refine ⟨v, rfl, hsame.trans hprefs, fun _ => ?_, fun hne => absurd htabs hne⟩
    have hnil : ({ w'.ui with page := { w'.ui.page with newTabPosition := position } } : Ui).page.tabs = [] := by
      rw [hui]
      exact htabs
    unfold Web.shellTabs
    rw [htab]
    exact createTab_shellTabs hnil profile
  · rw [if_neg (mt List.length_eq_zero_iff.mp htabs)]
    exact ⟨w', rfl, hprefs, fun hnil => absurd hnil htabs, fun _ => hui⟩

theorem wtBootstrap_scheme (h : wtBootstrap J strerror c start w = some v) :
    v.prefs .scheme = loadPrefs J c w.prefs .scheme := by
  unfold wtBootstrap at h
  obtain ⟨w', happly, hrest⟩ := Option.bind_eq_some_iff.mp h
  obtain ⟨theme, _, rfl⟩ := Option.map_eq_some_iff.mp happly
  have hkeep : applyChromeTypography (loadPrefs J c w.prefs) .scheme = loadPrefs J c w.prefs .scheme :=
    Prefs.set_of_ne (by decide) _ _
  split at hrest
  · obtain ⟨theme', _, rfl⟩ := Option.map_eq_some_iff.mp hrest
    exact hkeep
  · cases hrest
    exact hkeep

/-- The preferences that the page has after both loads. -/
theorem loadPrefs_openPage (c d : Channels Text) (u : Ui) :
    loadPrefs J d (openPage J c u).prefs = (((loaded J d).or (loaded J c)).map normalizedOf).getD defaultPrefs := by
  show loadPrefs J d (loadPrefs J c defaultPrefs) = _
  rw [loadPrefs_eq, loadPrefs_eq]
  cases loaded J d <;> rfl

theorem loadPrefs_inDomain_iff (c d : Channels Text) (u : Ui) :
    (loadPrefs J d (openPage J c u).prefs).InDomain ↔
      ∀ v ∈ (loaded J d).or (loaded J c), SchemeNotInherited v := by
  rw [loadPrefs_openPage]
  cases (loaded J d).or (loaded J c) with
  | none => exact iff_of_true defaultPrefs_inDomain fun v hv => by cases hv
  | some v =>
      rw [Option.map_some, Option.getD_some, normalizedOf_inDomain_iff]
      constructor
      · intro h v' hv'
        cases hv'
        exact h
      · intro h
        exact h v rfl

/-- The domain of the scheme decides over that of all fields. -/
theorem loadPrefs_inDomain_of_scheme (c d : Channels Text) (u : Ui)
    (h : (check .scheme).Domain (loadPrefs J d (openPage J c u).prefs .scheme)) :
    (loadPrefs J d (openPage J c u).prefs).InDomain := by
  rw [loadPrefs_openPage] at h ⊢
  cases hload : (loaded J d).or (loaded J c) with
  | none => exact defaultPrefs_inDomain
  | some v =>
      rw [hload] at h
      intro k
      by_cases hk : k = .scheme
      · rw [hk]
        exact h
      · exact normalizedOf_domain hk v

end Kworker.Terminal

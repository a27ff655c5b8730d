import Kworker.Terminal.Settings
import Kworker.Terminal.Lemmas.Load

/-!
# The handlers of the settings panel
-/

namespace Kworker.Terminal

open Kworker.Lib

variable {Text : Type} {J : JsonText Text} {p q : Prefs} {k : PrefKey} {v : Json}

/-! ## The tables of the handlers -/

theorem Prefs.set_set (k : PrefKey) (v v' : Json) (p : Prefs) : (p.set k v).set k v' = p.set k v' := by
  funext j
  by_cases hj : j = k
  · rw [hj, set_self, set_self]
  · rw [set_of_ne hj, set_of_ne hj, set_of_ne hj]

theorem Prefs.Normalized.applyChromeTypography (hp : p.Normalized) :
    Terminal.applyChromeTypography p = p :=
  applyChromeTypography_eq (hp.fixed.fields .fontSize (by decide) (by decide))

theorem renderMenu_set (items : List MenuItem) (p : Prefs) :
    renderMenu (p.set .newTabMenuItems (menuJson items)) =
      p.set .newTabMenuItems (Check.newTabMenuItems.run (some (menuJson items))) := by
  unfold renderMenu menuItems
  rw [Prefs.set_set, Prefs.set_self]
  rfl

theorem Prefs.Normalized.setMenu (hp : p.Normalized) {items : List MenuItem} (h : ∀ i ∈ items, i.Short) :
    (p.set .newTabMenuItems (Check.newTabMenuItems.run (some (menuJson items)))).Normalized :=
  (hp.set_iff (by decide) (by decide) _).mpr (Check.menu_run h)

theorem Prefs.Normalized.storeMenu (hp : p.Normalized) (items : List MenuItem) :
    (Terminal.storeMenu items p).Normalized := by
  unfold Terminal.storeMenu
  rw [renderMenu_set]
  exact hp.setMenu fun i hi => ((normalizeNewTabMenuItems_spec _).1 i hi).short

theorem Prefs.Normalized.renderMenu (hp : p.Normalized) : Terminal.renderMenu p = p :=
  Prefs.set_eq_self (hp.fixed.fields .newTabMenuItems (by decide) (by decide)).symm

theorem Prefs.Normalized.syncPrefs (hp : p.Normalized) : Terminal.syncPrefs p = p := by
  have hgen : p.set .extensionGenerators
      (generatorsJson (normalizeExtensionGenerators (some (p .extensionGenerators)))) = p :=
    Prefs.set_eq_self (hp.fixed.fields .extensionGenerators (by decide) (by decide)).symm
  unfold Terminal.syncPrefs
  rw [hgen, hp.renderMenu]

/-- The next start normalises what was saved. -/
theorem nextStart_of_text {s : Stores Text} (hp : p.Readable)
    (h : rawPrefs J s.atPageEnd = J.stringify p.toJson) : nextStart J s = normalizeField p.toJson := by
  rw [nextStart_eq]
  unfold loadPrefs assignPrefs
  rw [h, J.isEmpty_stringify, if_neg (by decide), J.parse_stringify _ hp.toJson]
  show (normalizePrefs p.toJson).getD defaultPrefs = normalizeField p.toJson
  rw [hp.normalizePrefs]
  rfl

theorem Prefs.Normalized.snapshot (hp : p.Normalized) : prefsSnapshotSerialize J p = J.stringify p.toJson := by
  have hsome : normalizePrefs p.toJson = some p := hp
  unfold prefsSnapshotSerialize
  rw [hsome]
  rfl

/-- The snapshot holds the marked preferences, and these are normal. -/
structure Panel.Inv (J : JsonText Text) (s : Panel Text) : Prop where
  snapshot : s.prefsSnapshot = prefsSnapshotSerialize J s.marked
  marked : s.marked.Normalized

variable {s t : Panel Text} {a : PanelAct}

end Kworker.Terminal

import Kworker.Terminal.Lemmas.Load
import Kworker.Terminal.MenuEditor

/-!
# The editor of the new-tab menu keeps its list
-/

namespace Kworker.Terminal

open Kworker.Lib

/-! ## The handlers of the settings panel -/

def MenuOp.act : MenuOp → FieldAct
  | .up row => .menuUp row
  | .down row => .menuDown row
  | .delete row => .menuDelete row
  | .addProfile profile => .addProfile profile
  | .addSeparator => .addSeparator
  | .addFolder value => .addFolder value

/-- The operations are those handlers of the panel. -/
theorem change_act (p : Prefs) (op : MenuOp) : change p op.act = (op.store p).map renderMenu := by
  cases op with
  | up row =>
      simp only [MenuOp.act, change, MenuOp.store]
      split <;> rfl
  | down row =>
      simp only [MenuOp.act, change, MenuOp.store]
      split <;> rfl
  | delete row =>
      simp only [MenuOp.act, change, MenuOp.store]
      generalize (menuItems p)[row]? = found
      cases found with
      | none => rfl
      | some item => cases item <;> rfl
  | addProfile profile => rfl
  | addSeparator => rfl
  | addFolder value => rfl

/-! ## What the normaliser does to well-formed entries -/

/-- The name without the blanks at its ends. -/
def MenuItem.trimmed : MenuItem → MenuItem
  | .folder name => .folder (trim name)
  | i => i

theorem MenuItem.WellFormed.read {i : MenuItem} (h : i.WellFormed) : readMenuItem i.toJson = some i.trimmed := by
  cases i with
  | remaining => rfl
  | separator => rfl
  | profile p => exact readMenuItem_profile p
  | folder name =>
      obtain ⟨hne, hlen⟩ := h
      rw [readMenuItem_folder, clampStr_of_le ((trim_length_le name).trans hlen), if_neg hne]
      rfl

theorem MenuItem.Fits.wellFormed {i : MenuItem} (h : i.Fits) : i.WellFormed := by
  cases i with
  | folder name =>
      obtain ⟨hne, hends, hlen⟩ := h
      refine ⟨?_, hlen⟩
      rw [hends.trim_eq]
      exact hne
  | remaining => trivial
  | separator => trivial
  | profile p => trivial

theorem MenuItem.WellFormed.trimmed_fits {i : MenuItem} (h : i.WellFormed) : i.trimmed.Fits :=
  h.short.read_fits h.read

theorem MenuItem.Fits.trimmed_eq {i : MenuItem} (h : i.Fits) : i.trimmed = i := by
  have hread := h.read
  rw [h.wellFormed.read, Option.some.injEq] at hread
  exact hread

theorem trimmed_eq_remaining {i : MenuItem} (h : i.trimmed = .remaining) : i = .remaining := by
  cases i with
  | remaining => rfl
  | separator => cases h
  | folder name => cases h
  | profile p => cases h

theorem collectMenuItems_of_wellFormed {items : List MenuItem} {seen : Bool}
    (hwf : ∀ i ∈ items, i.WellFormed) (hcount : items.count .remaining = if seen then 0 else 1) :
    collectMenuItems seen (items.map MenuItem.toJson) = items.map MenuItem.trimmed := by
  refine collectMenuItems_map (fun i hi => (hwf i hi).read) (fun i _ => ⟨trimmed_eq_remaining, ?_⟩) hcount
  intro h
  rw [h]
  rfl

/-- A list as it is after it has been read twice. -/
structure Kept (items : List MenuItem) : Prop where
  fits : ∀ i ∈ items, i.Fits
  remaining : items.count .remaining = 1

theorem normalize_trimmed {items : List MenuItem} (hwf : ∀ i ∈ items, i.WellFormed)
    (hcount : items.count .remaining = 1) :
    normalizeNewTabMenuItems (some (menuJson items)) = items.map MenuItem.trimmed :=
  collectMenuItems_of_wellFormed hwf hcount

theorem Kept.normalize {items : List MenuItem} (h : Kept items) :
    normalizeNewTabMenuItems (some (menuJson items)) = items :=
  collectMenuItems_of_fits h.fits h.remaining

theorem count_trimmed (items : List MenuItem) :
    (items.map MenuItem.trimmed).count .remaining = items.count .remaining := by
  rw [List.count_eq_countP, List.countP_map, List.count_eq_countP]
  apply List.countP_congr
  intro i _
  simp only [Function.comp_apply, beq_iff_eq]
  exact ⟨trimmed_eq_remaining, fun h => by rw [h]; rfl⟩

theorem kept_trimmed {items : List MenuItem} (hwf : ∀ i ∈ items, i.WellFormed)
    (hcount : items.count .remaining = 1) : Kept (items.map MenuItem.trimmed) where
  fits := by
    intro i hi
    obtain ⟨j, hj, rfl⟩ := List.mem_map.mp hi
    exact (hwf j hj).trimmed_fits
  remaining := (count_trimmed items).trans hcount

theorem Kept.trimmed_eq {items : List MenuItem} (h : Kept items) : items.map MenuItem.trimmed = items := by
  conv_rhs => rw [← List.map_id items]
  exact List.map_congr_left fun i hi => (h.fits i hi).trimmed_eq

theorem Kept.of_perm {items items' : List MenuItem} (h : Kept items) (hperm : items'.Perm items) :
    Kept items' where
  fits i hi := h.fits i (hperm.mem_iff.mp hi)
  remaining := (hperm.count_eq _).trans h.remaining

/-! ## Rows -/

section

variable {α : Type}

theorem exists_split {items : List α} {row : Nat} {a : α} (h : items[row]? = some a) :
    ∃ pre post, items = pre ++ a :: post ∧ pre.length = row := by
  obtain ⟨hlt, rfl⟩ := List.getElem?_eq_some_iff.mp h
  refine ⟨items.take row, items.drop (row + 1), ?_, ?_⟩
  · rw [← List.drop_eq_getElem_cons hlt, List.take_append_drop]
  · rw [List.length_take]
    omega

theorem exists_split_two {items : List α} {row : Nat} (h : row + 1 < items.length) :
    ∃ pre a b post, items = pre ++ a :: b :: post ∧ pre.length = row := by
  have hrow := List.getElem?_eq_getElem (Nat.lt_of_succ_lt h)
  generalize items[row] = a at hrow
  obtain ⟨pre, post, rfl, rfl⟩ := exists_split hrow
  cases post with
  | nil => simp at h
  | cons b post => exact ⟨pre, _, b, post, rfl, rfl⟩

theorem swapNext_split (pre post : List α) (a b : α) :
    swapNext pre.length (pre ++ a :: b :: post) = pre ++ b :: a :: post := by
  simp [swapNext]

theorem eraseIdx_split (pre post : List α) (a : α) :
    (pre ++ a :: post).eraseIdx pre.length = pre ++ post := by
  rw [List.eraseIdx_append_of_length_le (Nat.le_refl _), Nat.sub_self, List.eraseIdx_cons_zero]

end

theorem insertBeforeRemaining_split {pre : List MenuItem} (post : List MenuItem) (item : MenuItem)
    (hpre : .remaining ∉ pre) : insertBeforeRemaining item (pre ++ .remaining :: post) =
      pre ++ item :: .remaining :: post := by
  have hidx : (pre ++ .remaining :: post).findIdx (· = MenuItem.remaining) = pre.length := by
    rw [List.findIdx_append, if_neg]
    · simp [List.findIdx_cons]
    · simpa using hpre
  rw [insertBeforeRemaining, hidx]
  clear hidx hpre
  induction pre with
  | nil => rfl
  | cons i pre ih => exact congrArg (i :: ·) ih

/-! ## The editor -/

/-- The stored list is the one drawn, and the normaliser keeps it. -/
structure MenuEditor.Inv (e : MenuEditor) : Prop where
  stored : e.prefs .newTabMenuItems = menuJson e.drawn
  kept : Kept e.drawn

section

variable {e e' : MenuEditor} {p : Prefs} {items : List MenuItem}

theorem MenuEditor.Inv.menuItems_eq (h : e.Inv) : menuItems e.prefs = e.drawn := by
  rw [menuItems, h.stored]
  exact h.kept.normalize

theorem MenuEditor.Inv.sound (h : e.Inv) : e.Sound where
  stored := h.stored
  normal := h.menuItems_eq
  remaining := h.kept.remaining
  wellFormed i hi := (h.kept.fits i hi).wellFormed

theorem draw_stored (p : Prefs) :
    (MenuEditor.draw p).prefs .newTabMenuItems = menuJson (MenuEditor.draw p).drawn :=
  Prefs.set_self .newTabMenuItems (menuJson (menuItems p)) p

theorem draw_kept (p : Prefs) (h : Kept items) :
    (MenuEditor.draw (p.set .newTabMenuItems (menuJson items))).drawn = items ∧
    (MenuEditor.draw (p.set .newTabMenuItems (menuJson items))).Inv := by
  have hdrawn : menuItems (p.set .newTabMenuItems (menuJson items)) = items := by
    rw [menuItems, Prefs.set_self]
    exact h.normalize
  refine ⟨hdrawn, ⟨draw_stored _, ?_⟩⟩
  rw [MenuEditor.draw, hdrawn]
  exact h

/-- An entry is added before `remaining`. -/
theorem normalize_added (h : Kept items) (item : MenuItem) (hitem : item.WellFormed)
    (hne : item ≠ .remaining) : ∃ pre post, items = pre ++ .remaining :: post ∧
      normalizeNewTabMenuItems (some (menuJson (insertBeforeRemaining item items))) =
        pre ++ item.trimmed :: .remaining :: post ∧
      Kept (pre ++ item.trimmed :: .remaining :: post) := by
  have hmem : MenuItem.remaining ∈ items := by
    rw [← List.count_pos_iff, h.remaining]
    exact Nat.one_pos
  obtain ⟨pre, post, rfl, hpre⟩ := List.eq_append_cons_of_mem hmem
  have hperm : (pre ++ item :: .remaining :: post).Perm (item :: (pre ++ .remaining :: post)) :=
    List.perm_middle
  have hwf : ∀ i ∈ pre ++ item :: .remaining :: post, i.WellFormed := by
    intro i hi
    rcases List.mem_cons.mp (hperm.mem_iff.mp hi) with rfl | hi
    · exact hitem
    · exact (h.fits i hi).wellFormed
  have hcount : (pre ++ item :: .remaining :: post).count .remaining = 1 := by
    rw [hperm.count_eq, List.count_cons_of_ne hne, h.remaining]
  have htrimmed : (pre ++ item :: .remaining :: post).map MenuItem.trimmed =
      pre ++ item.trimmed :: .remaining :: post := by
    have hkept := h.trimmed_eq
    rw [List.map_append] at hkept ⊢
    obtain ⟨hpre', hpost'⟩ := List.append_inj hkept (List.length_map _)
    rw [hpre', List.map_cons, hpost']
  refine ⟨pre, post, rfl, ?_, ?_⟩
  · rw [insertBeforeRemaining_split post item hpre, normalize_trimmed hwf hcount, htrimmed]
  · rw [← htrimmed]
    exact kept_trimmed hwf hcount

theorem folderName_wellFormed (value : JsString) : (MenuItem.folder (folderName value)).WellFormed := by
  refine ⟨?_, clampStr_length_le _ _⟩
  unfold folderName
  split
  · decide
  · rename_i hne
    exact trim_clampStr_trim_ne_nil (by decide) hne

/-- An operation on a row that is drawn stores the edited list. -/
theorem store_edits {op : MenuOp} (h : Kept items) (hitems : menuItems p = items)
    (hon : op.enabled items = true) : ∃ items', op.store p =
      some (p.set .newTabMenuItems (menuJson items')) ∧ Edits op items items' ∧ Kept items' := by
  cases op with
  | up row =>
      simp only [MenuOp.enabled, Bool.and_eq_true, decide_eq_true_eq] at hon
      obtain ⟨hlt, hpos⟩ := hon
      have hrow : 0 < row ∧ row < items.length := ⟨Nat.pos_of_ne_zero hpos, hlt⟩
      have hpair : row - 1 + 1 < items.length := by omega
      obtain ⟨pre, a, b, post, rfl, hlen⟩ := exists_split_two hpair
      obtain rfl : row = pre.length + 1 := by omega
      refine ⟨_, ?_, .up pre post a b, h.of_perm ((List.Perm.swap a b post).append_left pre)⟩
      simp only [MenuOp.store, hitems]
      rw [if_pos hrow, Nat.add_sub_cancel, swapNext_split]
  | down row =>
      simp only [MenuOp.enabled, Bool.and_eq_true, decide_eq_true_eq] at hon
      obtain ⟨hlt, hlast⟩ := hon
      have hrow : row + 1 < items.length := by omega
      obtain ⟨pre, a, b, post, rfl, rfl⟩ := exists_split_two hrow
      refine ⟨_, ?_, .down pre post a b, h.of_perm ((List.Perm.swap a b post).append_left pre)⟩
      simp only [MenuOp.store, hitems]
      rw [if_pos hrow, swapNext_split]
  | delete row =>
      obtain ⟨a, ha, hne⟩ := (Option.any_eq_true _ _).mp hon
      have hne : a ≠ .remaining := of_decide_eq_true hne
      obtain ⟨pre, post, rfl, rfl⟩ := exists_split ha
      have hkept : Kept (pre ++ post) := by
        refine ⟨fun i hi => h.fits i ?_, ?_⟩
        · exact List.perm_middle.mem_iff.mpr (List.mem_cons_of_mem _ hi)
        · rw [← h.remaining, List.perm_middle.count_eq, List.count_cons_of_ne hne]
      refine ⟨pre ++ post, ?_, .delete pre post a hne, hkept⟩
      simp only [MenuOp.store, hitems, ha, eraseIdx_split, hkept.normalize]
  | addProfile profile =>
      obtain ⟨pre, post, rfl, hnormal, hkept⟩ := normalize_added h (.profile profile) trivial nofun
      refine ⟨_, ?_, .addProfile pre post profile, hkept⟩
      simp only [MenuOp.store, hitems, hnormal]
      rfl
  | addSeparator =>
      obtain ⟨pre, post, rfl, hnormal, hkept⟩ := normalize_added h .separator trivial nofun
      refine ⟨_, ?_, .addSeparator pre post, hkept⟩
      simp only [MenuOp.store, hitems, hnormal]
      rfl
  | addFolder value =>
      obtain ⟨pre, post, rfl, hnormal, hkept⟩ := normalize_added h _ (folderName_wellFormed value) nofun
      refine ⟨_, ?_, .addFolder pre post value, hkept⟩
      simp only [MenuOp.store, hitems, hnormal]
      rfl

theorem step_edits {op : MenuOp} (h : e.Inv) (hstep : e.step op = some e') :
    Edits op e.drawn e'.drawn ∧ e'.Inv := by
  rw [MenuEditor.step, Option.ite_none_right_eq_some, Option.some.injEq] at hstep
  obtain ⟨hon, rfl⟩ := hstep
  obtain ⟨items', hstore, hedits, hkept⟩ := store_edits h.kept h.menuItems_eq hon
  rw [hstore, Option.map_some, Option.getD_some]
  obtain ⟨hdrawn, hinv⟩ := draw_kept e.prefs hkept
  rw [hdrawn]
  exact ⟨hedits, hinv⟩

end

/-! ## The beginning -/

/-- Loaded preferences have been normalised once, and once more when they are drawn. -/
theorem opened_inv {stored : Json} {p : Prefs} (hload : normalizePrefs stored = some p) :
    (MenuEditor.opened p).Inv := by
  rw [normalizePrefs_eq, Option.ite_none_right_eq_some, Option.some.injEq] at hload
  obtain ⟨_, rfl⟩ := hload
  have hdomain : Check.newTabMenuItems.Domain (normalizedOf stored .newTabMenuItems) :=
    normalizedOf_domain (by decide) stored
  obtain ⟨items, hitems, hwf, hcount⟩ := hdomain
  have hdrawn : menuItems ((normalizedOf stored).set .extensionGenerators (generatorsJson
      (normalizeExtensionGenerators (some (normalizedOf stored .extensionGenerators))))) =
      items.map MenuItem.trimmed := by
    rw [menuItems, Prefs.set_of_ne (by decide), hitems]
    exact normalize_trimmed hwf hcount
  refine ⟨draw_stored _, ?_⟩
  rw [MenuEditor.opened, MenuEditor.draw, hdrawn]
  exact kept_trimmed hwf hcount

end Kworker.Terminal

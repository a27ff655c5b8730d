import Kworker.Bios.Draw

/-!
# The selection and the rows of the menus
-/

namespace Kworker.Bios

open Kworker.Lib

variable {ops : Option BoardOps} {s s' : Setup}

/-! ## The loops over the tables -/

section

variable {α : Type} (ok : α → Bool)

theorem countVisible_eq (n : Nat) (as : List α) : countVisible ok n as = n + (as.filter ok).length := by
  induction as generalizing n with
  | nil => rfl
  | cons a as ih =>
      rw [countVisible, ih, List.filter_cons]
      split
      · rw [List.length_cons]
        omega
      · rfl

theorem lookupVisible_eq (vis i : Nat) (as : List α) :
    lookupVisible ok (vis + i) vis as = (as.filter ok)[i]? := by
  induction as generalizing vis i with
  | nil => rfl
  | cons a as ih =>
      rw [lookupVisible, List.filter_cons]
      split
      · cases i with
        | zero => simp
        | succ i =>
            rw [if_neg (by omega), List.getElem?_cons_succ, ← ih (vis + 1) i]
            congr 1
            omega
      · exact ih vis i

end

theorem main_count_loop (ops : Option BoardOps) :
    kh_bios_menu_main_count ops = countVisible (feat_ok ops ·.required_feat) 0 main_menu_table := by
  rw [countVisible_eq, Nat.zero_add]
  rfl

theorem main_item_loop (ops : Option BoardOps) (index : Nat) : kh_bios_menu_main_item ops index =
    lookupVisible (feat_ok ops ·.required_feat) index 0 main_menu_table := by
  have h := lookupVisible_eq (fun i => feat_ok ops i.required_feat) 0 index main_menu_table
  rw [Nat.zero_add] at h
  exact h.symm

theorem adv_count_loop (ops : Option BoardOps) :
    kh_bios_menu_adv_count ops = countVisible (feat_ok ops ·.2) 0 adv_table := by
  rw [countVisible_eq, Nat.zero_add]
  rfl

theorem adv_lookup_loop (ops : Option BoardOps) (index : Nat) : (advItems ops)[index]? =
    lookupVisible (feat_ok ops ·.2) index 0 adv_table := by
  have h := lookupVisible_eq (fun i => feat_ok ops i.2) 0 index adv_table
  rw [Nat.zero_add] at h
  exact h.symm

/-! ## The selection -/

theorem feat_ok_zero (ops : Option BoardOps) : feat_ok ops 0 = true := rfl

theorem main_count_pos (ops : Option BoardOps) : 0 < kh_bios_menu_main_count ops := by
  refine List.length_pos_of_mem (a := ⟨"System Information", 0, .main, .info⟩) ?_
  exact List.mem_filter.mpr ⟨List.mem_cons_self, feat_ok_zero ops⟩

theorem adv_count_pos (ops : Option BoardOps) : 0 < kh_bios_menu_adv_count ops := by
  refine List.length_pos_of_mem (a := ("U-Boot Command Line", 0)) ?_
  exact List.mem_filter.mpr ⟨by simp [adv_table], feat_ok_zero ops⟩

theorem hwLineCount_pos (ops : Option BoardOps) (env : Env) : 0 < hwLineCount ops env := by
  unfold hwLineCount
  split
  · exact Nat.zero_lt_two
  · split
    · exact Nat.zero_lt_two
    · rename_i h
      exact Nat.pos_of_ne_zero h

theorem moveSel_lt {count sel : Nat} (h : sel < count) (key : Key) : moveSel count sel key < count := by
  unfold moveSel
  split
  · omega
  · split
    · assumption
    · exact h
  · exact h

/-- The selection is one of the items. -/
def Screen.InRange (ops : Option BoardOps) (screen : Screen) : Prop :=
  ∀ sel count, screen.selection ops = some (sel, count) → sel < count

theorem Screen.inRange_of {screen : Screen} {sel count : Nat} (h : screen.selection ops = some (sel, count))
    (hlt : sel < count) : screen.InRange ops := by
  intro sel' count' h'
  rw [h] at h'
  cases h'
  exact hlt

theorem enter_inRange (ops : Option BoardOps) (s : Setup) (page : Page) :
    (s.enter ops page).screen.InRange ops := by
  cases page with
  | main => exact Screen.inRange_of rfl (main_count_pos ops)
  | boot =>
      refine Screen.inRange_of rfl ?_
      split <;> decide
  | hardware => exact Screen.inRange_of rfl (hwLineCount_pos ops s.ram)
  | security =>
      intro sel count h
      cases h
  | advanced => exact Screen.inRange_of rfl (adv_count_pos ops)

/-- What one key does to the selection: it moves among its items, or another page begins. -/
theorem key_inRange {key : Key} (h : s.screen.InRange ops) (hkey : s.key ops key = .ok s') :
    s'.screen.InRange ops := by
  obtain ⟨screen, ctx, ram⟩ := s
  unfold Setup.key at hkey
  split at hkey
  · cases hkey
    exact h
  · cases screen with
    | main sel =>
        have hsel : sel < kh_bios_menu_main_count ops := h _ _ rfl
        simp only [page_main] at hkey
        split at hkey
        · cases hkey
        · split at hkey
          · cases hkey
            exact h
          · rename_i item _
            split at hkey
            · cases hkey
              exact Screen.inRange_of rfl hsel
            · cases hkey
            · cases hkey
            · cases hkey
              exact enter_inRange ops _ item.page
        · cases hkey
          exact Screen.inRange_of rfl (moveSel_lt hsel _)
    | info sel =>
        cases hkey
        exact Screen.inRange_of rfl (h _ _ rfl)
    | boot sel =>
        simp only [page_boot] at hkey
        split at hkey
        · cases hkey
          exact enter_inRange ops _ .main
        · cases hkey
          exact h
        · cases hkey
          exact Screen.inRange_of rfl (moveSel_lt (h _ _ rfl) _)
    | hardware sel line_count =>
        simp only [page_hardware] at hkey
        split at hkey
        · cases hkey
          exact enter_inRange ops _ .main
        · cases hkey
          have hscreen : (toggleHardware ops sel ⟨.hardware sel line_count, ctx, ram⟩).screen =
              .hardware sel line_count := by
            unfold toggleHardware
            split
            · rfl
            · split <;> rfl
          rw [hscreen]
          exact h
        · cases hkey
          exact Screen.inRange_of rfl (moveSel_lt (h _ _ rfl) _)
    | security =>
        simp only at hkey
        split at hkey
        · cases hkey
          exact enter_inRange ops _ .main
        · cases hkey
          exact h
    | advanced sel =>
        simp only [page_advanced] at hkey
        split at hkey
        · cases hkey
          exact enter_inRange ops _ .main
        · split at hkey
          · cases hkey
          · split at hkey <;> cases hkey
        · cases hkey
          exact Screen.inRange_of rfl (moveSel_lt (h _ _ rfl) _)

theorem run_inRange {keys : List Key} (h : s.screen.InRange ops)
    (hrun : keys.foldlM (Setup.key ops) s = .ok s') : s'.screen.InRange ops := by
  induction keys generalizing s with
  | nil =>
      cases hrun
      exact h
  | cons key keys ih =>
      rw [List.foldlM_cons] at hrun
      cases hkey : s.key ops key with
      | error e =>
          rw [hkey] at hrun
          cases hrun
      | ok t =>
          rw [hkey] at hrun
          exact ih (key_inRange h hkey) hrun

/-! ## The rows -/

/-- Rows one below the other, with the row `sel` highlighted. -/
def RowsOk (rows : List Row) (sel count : Nat) : Prop :=
  rows.map (·.row) = List.range count ∧ ∀ row ∈ rows, row.highlight = true ↔ row.row = sel

/-- The loop that draws what it finds for every index up to the count. -/
theorem rowsOk_items {α : Type} (items : List α) (sel : Nat) (text : α → String) :
    RowsOk ((List.range items.length).filterMap fun i =>
      items[i]?.map fun a => (⟨i, text a, i = sel⟩ : Row)) sel items.length := by
  constructor
  · rw [List.map_filterMap]
    have hall : ∀ i ∈ List.range items.length,
        ((items[i]?.map fun a => (⟨i, text a, i = sel⟩ : Row)).map (·.row)) = some i := by
      intro i hi
      rw [List.getElem?_eq_getElem (List.mem_range.mp hi)]
      rfl
    rw [List.filterMap_congr hall, List.filterMap_some]
  · intro row hrow
    obtain ⟨i, _, hi⟩ := List.mem_filterMap.mp hrow
    obtain ⟨a, _, rfl⟩ := Option.map_eq_some_iff.mp hi
    exact decide_eq_true_iff

theorem rowsOk_main (ops : Option BoardOps) (sel : Nat) :
    RowsOk (mainRows ops sel) sel (kh_bios_menu_main_count ops) :=
  rowsOk_items (mainItems ops) sel (·.label)

theorem advancedRows_eq (ops : Option BoardOps) (sel : Nat) :
    advancedRows ops sel = (List.range (advItems ops).length).filterMap fun i =>
      (advItems ops)[i]?.map fun a => (⟨i, a.1, i = sel⟩ : Row) := by
  simp only [advancedRows, kh_bios_menu_adv_label, kh_bios_menu_adv_count, Option.map_map]
  rfl

theorem rowsOk_advanced (ops : Option BoardOps) (sel : Nat) :
    RowsOk (advancedRows ops sel) sel (kh_bios_menu_adv_count ops) := by
  rw [advancedRows_eq]
  exact rowsOk_items (advItems ops) sel (·.1)

theorem rowsOk_boot (ctx : Ctx) (sel : Nat) : RowsOk (bootRows ctx sel) sel KH_BOOT_ITEMS := by
  refine ⟨rfl, fun row hrow => ?_⟩
  simp only [bootRows, List.mem_cons, List.not_mem_nil, or_false] at hrow
  rcases hrow with rfl | rfl | rfl <;> simp [eq_comm]

theorem rowsOk_hardware (lines : Nat → String) (ctx : Ctx) (sel line_count : Nat) :
    RowsOk (hardwareRows ops lines ctx sel line_count) sel line_count := by
  constructor
  · simp [hardwareRows, Function.comp_def]
  · intro row hrow
    obtain ⟨i, _, rfl⟩ := List.mem_map.mp hrow
    simp [eq_comm]

theorem rows_ok {shown : Shown} (hitems : s.screen.showsItems = true) {sel count : Nat}
    (hsel : s.screen.selection ops = some (sel, count)) : RowsOk (s.rows ops shown) sel count := by
  obtain ⟨screen, ctx, ram⟩ := s
  cases screen with
  | main sel => cases hsel; exact rowsOk_main ops _
  | info sel => cases hitems
  | boot sel => cases hsel; exact rowsOk_boot ctx _
  | hardware sel line_count => cases hsel; exact rowsOk_hardware shown.lines ctx _ _
  | security => cases hitems
  | advanced sel => cases hsel; exact rowsOk_advanced ops _

theorem no_highlight {shown : Shown} (hitems : s.screen.showsItems = false) :
    ∀ row ∈ s.rows ops shown, row.highlight = false := by
  obtain ⟨screen, ctx, ram⟩ := s
  intro row hrow
  cases screen with
  | info sel =>
      simp only [Setup.rows, sysInfoRows] at hrow
      split at hrow
      · rw [List.mem_singleton.mp hrow]
      · rw [List.mem_singleton.mp hrow]
      · obtain ⟨i, _, rfl⟩ := List.mem_mapIdx.mp hrow
        rfl
  | security =>
      simp only [Setup.rows, securityRows, List.mem_cons, List.not_mem_nil, or_false] at hrow
      rcases hrow with rfl | rfl | rfl <;> rfl
  | main sel => cases hitems
  | boot sel => cases hitems
  | hardware sel line_count => cases hitems
  | advanced sel => cases hitems

/-! ## Enter -/

/-- What `page_main` does with Enter on this item. -/
def MainMenuItem.choice (item : MainMenuItem) : Choice :=
  match item.action with
  | .none => .page item.page
  | .info => .info
  | .save_exit => .exit .save
  | .discard_exit => .exit .discard

theorem meaningOf_main : ∀ item ∈ main_menu_table, meaningOf item.label = some item.choice := by
  decide

/-- What `page_advanced` does with Enter on an item with this feature. -/
def featChoice (feat : UInt32) : Choice :=
  if feat = KH_BIOS_FEAT_FASTBOOT then .exit .fastboot
  else if feat = KH_BIOS_FEAT_ROCKUSB then .exit .rockusb
  else .exit .cli

theorem meaningOf_adv : ∀ item ∈ adv_table, meaningOf item.1 = some (featChoice item.2) := by
  decide

theorem enter_main {sel : Nat} {item : MainMenuItem} (hscreen : s.screen = .main sel)
    (hitem : kh_bios_menu_main_item ops sel = some item) :
    s.key ops .enter = item.choice.carryOut ops s := by
  obtain ⟨screen, ctx, ram⟩ := s
  cases hscreen
  simp only [Setup.key, page_main, hitem, MainMenuItem.choice]
  cases item.action <;> rfl

theorem enter_advanced {sel : Nat} {item : String × UInt32} (hscreen : s.screen = .advanced sel)
    (hitem : (advItems ops)[sel]? = some item) :
    s.key ops .enter = (featChoice item.2).carryOut ops s := by
  obtain ⟨screen, ctx, ram⟩ := s
  cases hscreen
  simp only [Setup.key, reduceCtorEq, if_false, page_advanced, kh_bios_menu_adv_feat, hitem,
    Option.map_some, Option.getD_some, featChoice]
  split
  · rfl
  · split <;> rfl

/-- The row of the selection is the item that Enter looks up. -/
theorem enter_ok {shown : Shown} {sel : Nat} (hscreen : s.screen = .main sel ∨ s.screen = .advanced sel)
    {row : Row} (hrow : row ∈ s.rows ops shown) (hhigh : row.highlight = true) :
    ∃ choice, meaningOf row.text = some choice ∧ s.key ops .enter = choice.carryOut ops s := by
  rcases hscreen with hscreen | hscreen
  · simp only [Setup.rows, hscreen, mainRows] at hrow
    obtain ⟨i, _, hi⟩ := List.mem_filterMap.mp hrow
    obtain ⟨item, hitem, rfl⟩ := Option.map_eq_some_iff.mp hi
    obtain rfl : i = sel := decide_eq_true_iff.mp hhigh
    have hmem : item ∈ main_menu_table := (List.mem_filter.mp (List.mem_of_getElem? hitem)).1
    exact ⟨item.choice, meaningOf_main item hmem, enter_main hscreen hitem⟩
  · simp only [Setup.rows, hscreen, advancedRows_eq] at hrow
    obtain ⟨i, _, hi⟩ := List.mem_filterMap.mp hrow
    obtain ⟨item, hitem, rfl⟩ := Option.map_eq_some_iff.mp hi
    obtain rfl : i = sel := decide_eq_true_iff.mp hhigh
    have hmem : item ∈ adv_table := (List.mem_filter.mp (List.mem_of_getElem? hitem)).1
    exact ⟨featChoice item.2, meaningOf_adv item hmem, enter_advanced hscreen hitem⟩

theorem menuOk_of_inRange (h : s.screen.InRange ops) (shown : Shown) : s.MenuOk ops shown where
  inRange := h
  rows hitems _ _ hsel := rows_ok hitems hsel
  noHighlight := no_highlight
  found := by
    constructor
    · intro sel hscreen
      rw [hscreen] at h
      have hlt : sel < (mainItems ops).length := h sel _ rfl
      simp [kh_bios_menu_main_item, hlt]
    · intro sel hscreen
      rw [hscreen] at h
      have hlt : sel < (advItems ops).length := h sel _ rfl
      simp [kh_bios_menu_adv_label, hlt]
  enter := fun ⟨_, hscreen⟩ _ hrow hhigh => enter_ok hscreen hrow hhigh

end Kworker.Bios

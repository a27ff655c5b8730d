import Kworker.Bios.Lemmas.Draw
import Kworker.Bios.Lemmas.Framebuffer
import Kworker.Bios.Pages
import Mathlib.Data.List.Nodup

/-!
# What the pages draw
-/

namespace Kworker.Bios

open Kworker.Lib Layout

variable {font : VideoFont} {ops : Option BoardOps} {m : Memory} {p : Int × Int}

/-! ## Texts -/

theorem textPicture_outside {x y : Int} {s : List UInt8} {fg bg : UInt32}
    (h : ¬(y ≤ p.2 ∧ p.2 < y + font.BIOS_CHAR_H)) : textPicture font x y s fg bg p = none :=
  if_neg fun hin => h hin.2

theorem rectPicture_outside {x y w h : Int} {color : UInt32} (hout : ¬(y ≤ p.2 ∧ p.2 < y + h)) :
    rectPicture x y w h color p = none := if_neg fun hin => hout hin.2.2

theorem framePicture_outside {x y w h : Int} {outer inner : UInt32} (hout : ¬(y ≤ p.2 ∧ p.2 < y + h)) :
    framePicture x y w h outer inner p = none := if_neg fun hin => hout hin.2.2

theorem isInt_small {v : Int} (h : -10000 ≤ v ∧ v ≤ 10000) : IsInt v := ⟨by omega, by omega⟩

/-- A text without zeros that fits the screen's `int`s. -/
def ShortText (s : List UInt8) : Prop := 0 ∉ s ∧ s.length ≤ 128

instance (s : List UInt8) : Decidable (ShortText s) := inferInstanceAs (Decidable (_ ∧ _))

theorem short_brand : ShortText (bytes "KaihongOS Setup Utility") := by decide

theorem short_title (screen : Screen) : ShortText (bytes screen.title) := by
  have hall : ∀ title ∈ ["Main", "System Information", "Boot Configuration", "Hardware Configuration",
      "Security", "Advanced"], ShortText (bytes title) := by decide
  apply hall
  cases screen <;> simp [Screen.title]

theorem short_hint (screen : Screen) : ShortText (bytes screen.hint) := by
  have hall : ∀ hint ∈ ["Up/Down: Select  Enter: OK  Esc: Exit", "Press any key...",
      "Enter: Toggle/Select  Esc: Back", "Enter: Toggle  Esc: Back", "Esc: Back",
      "Enter: Execute  Esc: Back"], ShortText (bytes hint) := by decide
  apply hall
  cases screen <;> simp [Screen.hint]

theorem untilNul_length_le (s : List UInt8) : (untilNul s).length ≤ s.length :=
  (List.takeWhile_prefix _).length_le

theorem snprintf_length (s : List UInt8) : (snprintf 128 s).length ≤ 128 :=
  (List.length_take_le _ _).trans (by decide)

variable {fb : Int} {x y w h : Int} {fg bg color : UInt32}

theorem draws_short (fb : Int) (hfont : BoardFits font ops) (fg bg : UInt32) (hx : IsInt x) (hy : IsInt y)
    {s : List UInt8} (hs : s.length ≤ 128) (m : Memory) :
    (takeover fb).layout.Draws (textPicture font x y (untilNul s) fg bg) m
      (draw_text font (some (takeover fb)) x y (some s) fg bg m) := by
  have hpos := char_w_pos font
  have hle := untilNul_length_le s
  have hmul : ((untilNul s).length : Int) * font.BIOS_CHAR_W ≤ 128 * font.BIOS_CHAR_W :=
    Int.mul_le_mul_of_nonneg_right (by omega) hpos.le
  exact draws_text (takeover_offsetsFit fb) hx hy (hmul.trans hfont.width)

theorem draws_exactly (fb : Int) (hfont : BoardFits font ops) (fg bg : UInt32) (hx : IsInt x) (hy : IsInt y)
    {s : List UInt8} (hs : ShortText s) (m : Memory) :
    (takeover fb).layout.Draws (textPicture font x y s fg bg) m
      (draw_text font (some (takeover fb)) x y (some s) fg bg m) := by
  have hdrawn := draws_short fb hfont fg bg hx hy hs.2 m
  rwa [untilNul_eq fun d hd h0 => hs.1 (h0 ▸ hd)] at hdrawn

theorem draws_product (fb : Int) (hfont : BoardFits font ops) (fg bg : UInt32) (hx : IsInt x) (hy : IsInt y)
    (m : Memory) :
    (takeover fb).layout.Draws (textPicture font x y (untilNul (productName ops)) fg bg) m
      (draw_text font (some (takeover fb)) x y (some (productName ops)) fg bg m) :=
  draws_text (takeover_offsetsFit fb) hx hy hfont.product

theorem draws_rect (hfb : fb ≠ 0) (x y w h : Int) (color : UInt32) (hright : IsInt (x + w))
    (hbottom : IsInt (y + h)) (m : Memory) :
    (takeover fb).layout.Draws (rectPicture x y w h color) m
      (fb_fill_rect (some (takeover fb)) x y w h color m) :=
  draws_fill_rect hfb (takeover_offsetsFit fb) hright hbottom

/-! ## The chrome -/

/-- The picture of `draw_chrome`, the last call first. -/
def chromePicture (font : VideoFont) (product page : List UInt8) : Picture := fun p =>
  (rectPicture 0 972 1920 88 C_BLUE_LT p).or
    ((textPicture font 136 192 page C_WHITE C_BLUE p).or
      ((rectPicture 124 184 912 48 C_BLUE p).or
        ((framePicture 120 180 920 640 C_WHITE C_GRAY p).or
          ((textPicture font 1600 12 page C_WHITE C_BLUE_LT p).or
            ((textPicture font 1200 12 product C_WHITE C_BLUE_LT p).or
              ((textPicture font 24 12 (bytes "KaihongOS Setup Utility") C_WHITE C_BLUE_LT p).or
                ((rectPicture 0 0 1920 56 C_BLUE_LT p).or (rectPicture 0 0 1920 1080 C_BLUE p))))))))

theorem draws_chrome (hfb : fb ≠ 0) (hfont : BoardFits font ops) {page : List UInt8} (hpage : ShortText page)
    (m : Memory) :
    (takeover fb).layout.Draws (chromePicture font (untilNul (productName ops)) page) m
      (draw_chrome font (some (takeover fb)) (some (productName ops)) (some page) m) := by
  have hback := draws_rect hfb 0 0 1920 1080 C_BLUE (isInt_small (by decide)) (isInt_small (by decide)) m
  have htop := hback.trans
    (draws_rect hfb 0 0 1920 56 C_BLUE_LT (isInt_small (by decide)) (isInt_small (by decide)) _)
  have hbrand := htop.trans (draws_exactly fb (x := 24) (y := 12) hfont C_WHITE C_BLUE_LT
    (isInt_small (by decide)) (isInt_small (by decide)) short_brand _)
  have hproduct := hbrand.trans (draws_product fb (x := 1200) (y := 12) hfont C_WHITE C_BLUE_LT
    (isInt_small (by decide)) (isInt_small (by decide)) _)
  have htitle := hproduct.trans (draws_exactly fb (x := 1600) (y := 12) hfont C_WHITE C_BLUE_LT
    (isInt_small (by decide)) (isInt_small (by decide)) hpage _)
  have hpanel := htitle.trans (draws_frame (x := 120) (y := 180) (w := 920) (h := 640) hfb
    (takeover_offsetsFit fb) (isInt_small (by decide)) (isInt_small (by decide)) (isInt_small (by decide))
    (isInt_small (by decide)) (isInt_small (by decide)) (isInt_small (by decide)) (by decide) (by decide)
    C_WHITE C_GRAY)
  have hbar := hpanel.trans
    (draws_rect hfb 124 184 912 48 C_BLUE (isInt_small (by decide)) (isInt_small (by decide)) _)
  have hpage' := hbar.trans (draws_exactly fb (x := 136) (y := 192) hfont C_WHITE C_BLUE
    (isInt_small (by decide)) (isInt_small (by decide)) hpage _)
  exact hpage'.trans
    (draws_rect hfb 0 972 1920 88 C_BLUE_LT (isInt_small (by decide)) (isInt_small (by decide)) _)

/-! ## The rows -/

def rowPicture (font : VideoFont) (row : Row) : Picture := fun p =>
  (textPicture font 144 (252 + 44 * (row.row : Int)) row.line row.fg row.bg p).or
    (if row.highlight = true ∧ OnBar font row.row p then some C_BLUE else none)

theorem draws_row (hfb : fb ≠ 0) (hfont : BoardFits font ops) {row : Row} (hrow : row.row < 8) (ui : Ui) :
    (takeover fb).layout.Draws (rowPicture font row) ui.mem
      (kh_bios_ui_draw_line font (some (takeover fb)) row.row 0 (some (bytes row.text)) row.highlight ui).mem := by
  have hheight := hfont.height
  have hcell : 0 ≤ font.BIOS_CHAR_H := Int.mul_nonneg (Int.natCast_nonneg _) (by decide)
  have hx : int (MENU_X + ((0 : Nat) : Int) * font.BIOS_CHAR_W) = 144 := by
    rw [Int.natCast_zero, Int.zero_mul]
    rfl
  have hy : int (MENU_Y0 + (row.row : Int) * MENU_DY) = 252 + 44 * (row.row : Int) := by
    rw [int_of_isInt, Int.mul_comm]
    · rfl
    · constructor <;> simp only [MENU_Y0, MENU_DY, PANEL_Y] <;> omega
  have hbar : int (252 + 44 * (row.row : Int) - 4) = 248 + 44 * (row.row : Int) := by
    rw [int_of_isInt ⟨by omega, by omega⟩]
    omega
  have hbarHeight : int (font.BIOS_CHAR_H + 8) = font.BIOS_CHAR_H + 8 :=
    int_of_isInt ⟨by omega, by omega⟩
  unfold kh_bios_ui_draw_line
  simp only [hx, hy, hbar, hbarHeight]
  cases hhigh : row.highlight with
  | true =>
      have hrect := draws_rect hfb 128 (248 + 44 * (row.row : Int)) 904 (font.BIOS_CHAR_H + 8) C_BLUE
        (isInt_small (by decide)) ⟨by omega, by omega⟩ ui.mem
      have htext := draws_short fb (x := 144) (y := 252 + 44 * (row.row : Int)) hfont C_WHITE C_BLUE
        (isInt_small (by decide)) ⟨by omega, by omega⟩ (snprintf_length (bytes "  " ++ bytes row.text))
        (fb_fill_rect (some (takeover fb)) 128 (248 + 44 * (row.row : Int)) 904 (font.BIOS_CHAR_H + 8) C_BLUE
          ui.mem)
      refine (hrect.trans htext).congr fun p _ => ?_
      have hpicture : rectPicture 128 (248 + 44 * (row.row : Int)) 904 (font.BIOS_CHAR_H + 8) C_BLUE p =
          if OnBar font row.row p then some C_BLUE else none := if_congr (by unfold OnBar; omega) rfl rfl
      simp only [rowPicture, Row.line, Row.fg, Row.bg, hhigh, hpicture, if_true, true_and]
  | false =>
      refine (draws_short fb hfont C_BLACK C_GRAY (isInt_small (by decide)) ⟨by omega, by omega⟩
        (snprintf_length (bytes "  " ++ bytes row.text)) ui.mem).congr fun p _ => ?_
      simp [rowPicture, Row.line, Row.fg, Row.bg, hhigh]

/-- A row draws in its band only. -/
theorem rowPicture_outside (hheight : font.BIOS_CHAR_H ≤ 36) {row : Row} (h : ¬ row.Band p.2) :
    rowPicture font row p = none := by
  have htext : ¬(252 + 44 * (row.row : Int) ≤ p.2 ∧ p.2 < 252 + 44 * (row.row : Int) + font.BIOS_CHAR_H) := by
    unfold Row.Band at h
    omega
  have hbar : ¬(row.highlight = true ∧ OnBar font row.row p) := by
    rintro ⟨_, _, _, hlow, hhigh⟩
    unfold Row.Band at h
    omega
  rw [rowPicture, textPicture_outside htext, if_neg hbar, Option.or_none]

theorem band_unique {row row' : Row} (h : row.Band p.2) (h' : row'.Band p.2) : row.row = row'.row := by
  unfold Row.Band at h h'
  omega

/-- What the rows draw at a pixel is what the row draws to whose band it belongs. -/
def rowsPicture (font : VideoFont) (rows : List Row) : Picture := fun p =>
  (rows.find? fun row => row.Band p.2).bind fun row => rowPicture font row p

theorem draws_rows (hfb : fb ≠ 0) (hfont : BoardFits font ops) (rows : List Row)
    (hrows : ∀ row ∈ rows, row.row < 8) (hdistinct : (rows.map (·.row)).Nodup) (ui : Ui) :
    (takeover fb).layout.Draws (rowsPicture font rows) ui.mem
      (rows.foldl (fun ui row => kh_bios_ui_draw_line font (some (takeover fb)) row.row 0
        (some (bytes row.text)) row.highlight ui) ui).mem := by
  induction rows generalizing ui with
  | nil => exact draws_nothing fun _ _ => rfl
  | cons row rows ih =>
      obtain ⟨hrow, hrows⟩ := List.forall_mem_cons.mp hrows
      obtain ⟨hnot, hdistinct⟩ := List.nodup_cons.mp hdistinct
      refine ((draws_row hfb hfont hrow ui).trans (ih hrows hdistinct _)).congr fun p _ => ?_
      by_cases hband : row.Band p.2
      · have hnone : rows.find? (fun row => decide (row.Band p.2)) = none := by
          rw [List.find?_eq_none]
          intro row' hmem hband'
          exact hnot (List.mem_map.mpr ⟨row', hmem, (band_unique hband (of_decide_eq_true hband')).symm⟩)
        simp [rowsPicture, hband, hnone]
      · simp [rowsPicture, hband, rowPicture_outside hfont.height hband]

/-! ## The number of rows -/

variable {s s' : Setup} {shown : Shown}

/-- The lines of the Hardware page are as many as the board is asked for at most. -/
def Screen.Few (screen : Screen) : Prop := ∀ sel count, screen = .hardware sel count → count ≤ 8

theorem enter_few (hfont : BoardFits font ops) (s : Setup) (page : Page) : (s.enter ops page).screen.Few := by
  cases page with
  | hardware =>
      intro sel count h
      cases h
      unfold hwLineCount
      split
      · decide
      · rename_i fill hfill
        have hle : (fill s.ram).length ≤ 8 := hfont.hardware fill s.ram hfill
        split
        · decide
        · exact hle
  | main => intro sel count h; cases h
  | boot => intro sel count h; cases h
  | security => intro sel count h; cases h
  | advanced => intro sel count h; cases h

theorem key_few (hfont : BoardFits font ops) {key : Key} (h : s.screen.Few) (hkey : s.key ops key = .ok s') :
    s'.screen.Few := by
  obtain ⟨screen, ctx, ram⟩ := s
  unfold Setup.key at hkey
  split at hkey
  · cases hkey
    exact h
  · cases screen with
    | main sel =>
        simp only [page_main] at hkey
        split at hkey
        · cases hkey
        · split at hkey
          · cases hkey
            exact h
          · rename_i item _
            split at hkey
            · cases hkey
              intro sel count h
              cases h
            · cases hkey
            · cases hkey
            · cases hkey
              exact enter_few hfont _ item.page
        · cases hkey
          intro sel count h
          cases h
    | info sel =>
        cases hkey
        intro sel count h
        cases h
    | boot sel =>
        simp only [page_boot] at hkey
        split at hkey
        · cases hkey
          exact enter_few hfont _ .main
        · cases hkey
          exact h
        · cases hkey
          intro sel count h
          cases h
    | hardware sel line_count =>
        have hcount : line_count ≤ 8 := h sel line_count rfl
        simp only [page_hardware] at hkey
        split at hkey
        · cases hkey
          exact enter_few hfont _ .main
        · cases hkey
          unfold toggleHardware
          split
          · exact h
          · split <;> exact h
        · cases hkey
          intro sel' count h
          cases h
          exact hcount
    | security =>
        simp only at hkey
        split at hkey
        · cases hkey
          exact enter_few hfont _ .main
        · cases hkey
          exact h
    | advanced sel =>
        simp only [page_advanced] at hkey
        split at hkey
        · cases hkey
          exact enter_few hfont _ .main
        · split at hkey
          · cases hkey
          · split at hkey <;> cases hkey
        · cases hkey
          intro sel count h
          cases h

/-- The rows of every page are numbered from 0, and are at most eight. -/
theorem rows_numbered (hfont : BoardFits font ops) (h : s.screen.Few) (shown : Shown) :
    ∃ n ≤ 8, (s.rows ops shown).map (·.row) = List.range n := by
  obtain ⟨screen, ctx, ram⟩ := s
  cases screen with
  | main sel =>
      refine ⟨_, ?_, (rowsOk_main ops sel).1⟩
      exact (List.length_filter_le _ _).trans (by decide)
  | info sel =>
      simp only [Setup.rows, sysInfoRows]
      split
      · exact ⟨1, by decide, rfl⟩
      · exact ⟨1, by decide, rfl⟩
      · rename_i lines _ hlines
        refine ⟨lines.length, hfont.info lines hlines, List.ext_getElem (by simp) fun i hi hi' => ?_⟩
        simp
  | boot sel => exact ⟨3, by decide, (rowsOk_boot ctx sel).1⟩
  | hardware sel count => exact ⟨count, h sel count rfl, (rowsOk_hardware shown.lines ctx sel count).1⟩
  | security => exact ⟨3, by decide, rfl⟩
  | advanced sel =>
      refine ⟨_, ?_, (rowsOk_advanced ops sel).1⟩
      exact (List.length_filter_le _ _).trans (by decide)

/-! ## The page -/

theorem rowsPicture_outside {rows : List Row} (hrows : ∀ row ∈ rows, row.row < 8)
    (hout : p.2 < 248 ∨ 600 ≤ p.2) : rowsPicture font rows p = none := by
  have hnone : rows.find? (fun row => decide (row.Band p.2)) = none := by
    rw [List.find?_eq_none]
    intro row hmem hband
    have hrow := hrows row hmem
    have hband : row.Band p.2 := of_decide_eq_true hband
    unfold Row.Band at hband
    omega
  rw [rowsPicture, hnone, Option.bind_none]

/-- Above the panel. -/
theorem chrome_top (hp : (takeover fb).OnScreen p) (htop : p.2 < 56)
    (product page : List UInt8) :
    chromePicture font product page p = some (topLook font page product p) := by
  obtain ⟨h0, hx, hy0, _⟩ := hp
  have hx : p.1 < 1920 := hx
  have hbar : rectPicture 0 0 1920 56 C_BLUE_LT p = some C_BLUE_LT := if_pos (by omega)
  rw [chromePicture, rectPicture_outside (by omega), textPicture_outside (by omega),
    rectPicture_outside (by omega), framePicture_outside (by omega), hbar, Option.some_or]
  simp only [Option.or_some, Option.getD_none, topLook]

theorem chrome_footer (hp : (takeover fb).OnScreen p) (hlow : 972 ≤ p.2) (hhigh : p.2 < 1060)
    (product page : List UInt8) : chromePicture font product page p = some C_BLUE_LT := by
  obtain ⟨h0, hx, _, _⟩ := hp
  have hx : p.1 < 1920 := hx
  have hbar : rectPicture 0 972 1920 88 C_BLUE_LT p = some C_BLUE_LT := if_pos (by omega)
  rw [chromePicture, hbar, Option.some_or]

theorem chrome_panel (hheight : font.BIOS_CHAR_H ≤ 36) (hp : (takeover fb).OnScreen p) (htop : 56 ≤ p.2)
    (hfooter : ¬(972 ≤ p.2 ∧ p.2 < 1060)) (product page : List UInt8) :
    chromePicture font product page p = some (panelLook font page p) := by
  obtain ⟨h0, hx, hy0, hy⟩ := hp
  have hx : p.1 < 1920 := hx
  have hy : p.2 < 1080 := hy
  have hback : rectPicture 0 0 1920 1080 C_BLUE p = some C_BLUE := if_pos (by omega)
  rw [chromePicture, rectPicture_outside (by omega), textPicture_outside (x := 1600) (by omega),
    textPicture_outside (x := 1200) (by omega), textPicture_outside (x := 24) (by omega),
    rectPicture_outside (x := 0) (h := 56) (by omega), hback]
  simp only [Option.or_some, Option.getD_none, panelLook]

/-- The calls of a page, the last one first, come to what is to be seen. -/
theorem page_look (hheight : font.BIOS_CHAR_H ≤ 36) (hp : (takeover fb).OnScreen p) (ops : Option BoardOps)
    (shown : Shown) (s : Setup) (hrows : ∀ row ∈ s.rows ops shown, row.row < 8) :
    (textPicture font 24 992 (bytes s.screen.hint) C_WHITE C_BLUE_LT p).or
      ((rowsPicture font (s.rows ops shown) p).or
        (chromePicture font (untilNul (productName ops)) (bytes s.screen.title) p)) =
    some (s.look font ops shown p) := by
  unfold Setup.look
  by_cases htop : p.2 < 56
  · rw [if_pos htop, textPicture_outside (by omega), rowsPicture_outside hrows (by omega),
      chrome_top hp htop, Option.none_or, Option.none_or]
  rw [if_neg htop]
  by_cases hfooter : 972 ≤ p.2 ∧ p.2 < 1060
  · rw [if_pos hfooter, rowsPicture_outside hrows (by omega),
      chrome_footer hp hfooter.1 hfooter.2, Option.none_or, Option.or_some, footerLook]
  rw [if_neg hfooter, textPicture_outside (by omega), chrome_panel hheight hp (by omega) hfooter,
    Option.none_or, Option.or_some, rowsPicture]
  cases (s.rows ops shown).find? fun row => decide (row.Band p.2) with
  | none => rfl
  | some row =>
      simp only [Option.bind_some, rowPicture, Row.look]
      by_cases hbar : row.highlight = true ∧ OnBar font row.row p
      · rw [if_pos hbar, if_pos hbar, Option.or_some, Option.getD_some]
      · rw [if_neg hbar, if_neg hbar, Option.or_none]

theorem rows_below (hfont : BoardFits font ops) (h : s.screen.Few) (shown : Shown) :
    (∀ row ∈ s.rows ops shown, row.row < 8) ∧ ((s.rows ops shown).map (·.row)).Nodup := by
  obtain ⟨n, hn, hmap⟩ := rows_numbered hfont h shown
  refine ⟨fun row hrow => ?_, hmap ▸ List.nodup_range⟩
  have hmem : row.row ∈ List.range n := hmap ▸ List.mem_map_of_mem hrow
  have hlt := List.mem_range.mp hmem
  omega

theorem draws_page (hfb : fb ≠ 0) (hfont : BoardFits font ops) (h : s.screen.Few) (shown : Shown) (ui : Ui) :
    (takeover fb).layout.Draws (fun p => some (s.look font ops shown p)) ui.mem
      (s.draw font (some (takeover fb)) ops shown ui).mem := by
  obtain ⟨hrows, hdistinct⟩ := rows_below hfont h shown
  have htitle := draws_chrome hfb hfont (short_title s.screen) ui.mem
  have hlines := htitle.trans (draws_rows hfb hfont _ hrows hdistinct
    ⟨_, snprintf 64 (bytes s.screen.title)⟩)
  have hfooter := hlines.trans (draws_exactly fb (x := 24) (y := 992) hfont C_WHITE C_BLUE_LT
    (isInt_small (by decide)) (isInt_small (by decide)) (short_hint s.screen) _)
  exact hfooter.congr fun p hp => page_look hfont.height hp ops shown s hrows

/-! ## The selection -/

theorem textPicture_colors {s : List UInt8} {c : UInt32} (h : textPicture font x y s fg bg p = some c) :
    c = fg ∨ c = bg := by
  unfold textPicture at h
  split at h
  · obtain ⟨ch, _, rfl⟩ := Option.map_eq_some_iff.mp h
    split
    · exact Or.inl rfl
    · exact Or.inr rfl
  · cases h

/-- On its bar a row shows its two colours only. -/
theorem row_look {row : Row} (hbar : OnBar font row.row p) :
    row.look font C_GRAY p = row.fg ∨ row.look font C_GRAY p = row.bg := by
  rw [Row.look]
  cases htext : textPicture font 144 (252 + 44 * (row.row : Int)) row.line row.fg row.bg p with
  | some c =>
      rw [Option.getD_some]
      exact textPicture_colors htext
  | none =>
      right
      cases hhigh : row.highlight with
      | true => simp [Row.bg, hhigh, hbar]
      | false => simp [Row.bg, hhigh]

theorem bar_behind {i : Nat} (hi : i < 8) (hheight : font.BIOS_CHAR_H ≤ 36) (hbar : OnBar font i p)
    (title : List UInt8) : panelLook font title p = C_GRAY := by
  obtain ⟨hleft, hright, hlow, hhigh⟩ := hbar
  have hframe : framePicture 120 180 920 640 C_WHITE C_GRAY p = some C_GRAY := by
    rw [framePicture, if_pos (by omega), if_pos (by omega)]
  rw [panelLook, textPicture_outside (by omega), rectPicture_outside (by omega), hframe]
  rfl

theorem page_bar (hheight : font.BIOS_CHAR_H ≤ 36) (hdistinct : ((s.rows ops shown).map (·.row)).Nodup)
    {row : Row} (hmem : row ∈ s.rows ops shown) (hrow : row.row < 8) (hbar : OnBar font row.row p) :
    s.look font ops shown p = row.fg ∨ s.look font ops shown p = row.bg := by
  have hband : row.Band p.2 := by
    obtain ⟨_, _, hlow, hhigh⟩ := hbar
    exact ⟨hlow, by omega⟩
  have hfind : (s.rows ops shown).find? (fun row => decide (row.Band p.2)) = some row := by
    cases hfound : (s.rows ops shown).find? (fun row => decide (row.Band p.2)) with
    | none => exact absurd hband fun hband => List.find?_eq_none.mp hfound row hmem (decide_eq_true hband)
    | some row' =>
        have hband' : row'.Band p.2 :=
          of_decide_eq_true (List.find?_some (p := fun row : Row => decide (row.Band p.2)) hfound)
        have hsame := List.inj_on_of_nodup_map hdistinct (List.mem_of_find?_eq_some hfound) hmem
        rw [hsame (band_unique hband' hband)]
  have hmiddle := hbar.2.2
  rw [Setup.look, if_neg (by omega), if_neg (by omega)]
  simp only [hfind, bar_behind hrow hheight hbar]
  exact row_look hbar

/-! ## The setup with its screen -/

variable {c c' : Console} {a : Key × Shown}

/-- What holds between two keys. -/
structure Console.Drawn (font : VideoFont) (fb : Int) (ops : Option BoardOps) (m : Memory) (c : Console) :
    Prop where
  inRange : c.setup.screen.InRange ops
  few : c.setup.screen.Few
  drawn : (takeover fb).layout.Draws (fun p => some (c.setup.look font ops c.shown p)) m c.ui.mem

theorem drawn_again (hfb : fb ≠ 0) (hfont : BoardFits font ops) {ui : Ui} {q : Picture}
    (hui : (takeover fb).layout.Draws q m ui.mem) (hfew : s.screen.Few) (shown : Shown) :
    (takeover fb).layout.Draws (fun p => some (s.look font ops shown p)) m
      (s.draw font (some (takeover fb)) ops shown ui).mem :=
  (hui.trans (draws_page hfb hfont hfew shown ui)).congr fun _ _ => Option.some_or

theorem drawn_start (hfb : fb ≠ 0) (hfont : BoardFits font ops) (ram : Env) (shown : Shown) (m : Memory) :
    (Console.start font fb ops ram shown m).Drawn font fb ops m where
  inRange := Screen.inRange_of rfl (main_count_pos ops)
  few := fun sel count h => nomatch h
  drawn := by
    refine drawn_again hfb hfont
      (draws_rect hfb 0 0 1920 1080 C_BLUE (isInt_small (by decide)) (isInt_small (by decide)) m) ?_ shown
    intro sel count h
    cases h

/-- The Security page and `KH_KEY_NONE` change nothing. -/
theorem key_quiet {key : Key} (hquiet : s.redraws key = false) (hkey : s.key ops key = .ok s') : s' = s := by
  unfold Setup.redraws at hquiet
  unfold Setup.key at hkey
  split at hkey
  · cases hkey
    rfl
  · rename_i hnone
    simp only [Bool.and_eq_false_iff, Bool.or_eq_false_iff, decide_eq_false_iff_not, ne_eq, not_not] at hquiet
    obtain ⟨⟨hscreen, hesc⟩, henter⟩ := hquiet.resolve_left (by simpa using hnone)
    simp only [hscreen] at hkey
    rw [if_neg (by tauto)] at hkey
    cases hkey
    rfl

theorem drawn_step (hfb : fb ≠ 0) (hfont : BoardFits font ops) (hc : c.Drawn font fb ops m)
    (h : (console font fb ops).step c a = some c') : c'.Drawn font fb ops m := by
  unfold console at h
  simp only at h
  cases hkey : c.setup.key ops a.1 with
  | error e =>
      rw [hkey] at h
      cases h
  | ok setup =>
      rw [hkey] at h
      have hrange := key_inRange hc.inRange hkey
      have hfew := key_few hfont hc.few hkey
      cases hredraws : c.setup.redraws a.1 with
      | true =>
          simp only [hredraws, if_true, Option.some.injEq] at h
          subst h
          exact ⟨hrange, hfew, drawn_again hfb hfont hc.drawn hfew a.2⟩
      | false =>
          simp only [hredraws, Bool.false_eq_true, if_false, Option.some.injEq] at h
          subst h
          rw [key_quiet hredraws hkey]
          exact ⟨hc.inRange, hc.few, hc.drawn⟩

theorem shows_of_drawn (hfont : BoardFits font ops) (hc : c.Drawn font fb ops m) : c.Shows font fb ops where
  pixels p k hp h0 hk := hc.drawn.cells p k hp h0 hk
  selected sel count hitems hsel := by
    obtain ⟨hmap, hhigh⟩ : RowsOk (c.setup.rows ops c.shown) sel count := rows_ok hitems hsel
    obtain ⟨hrows, hdistinct⟩ := rows_below hfont hc.few c.shown
    refine ⟨hc.inRange sel count hsel, fun i hi p hbar => ?_⟩
    obtain ⟨row, hmem, rfl⟩ := List.mem_map.mp (hmap ▸ List.mem_range.mpr hi)
    have hlook := page_bar hfont.height hdistinct hmem (hrows row hmem) hbar
    have hiff := hhigh row hmem
    split
    · rename_i hrow
      simpa [Row.fg, Row.bg, hiff.mpr hrow] using hlook
    · rename_i hrow
      have hlow : row.highlight = false := Bool.eq_false_iff.mpr (mt hiff.mp hrow)
      simpa [Row.fg, Row.bg, hlow] using hlook

end Kworker.Bios

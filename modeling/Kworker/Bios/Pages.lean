import Kworker.Bios.Draw
import Kworker.Bios.Framebuffer
import Kworker.Lib.Machine
import Kworker.Lib.Utf8

/-!
# The pages of the setup on the screen

The functions of `core/kh_bios_ui_draw.c` that the pages call, what each page of `core/kh_bios_ui.c` and
`core/kh_bios_security.c` calls before it waits for a key, and what is then to be seen.
-/

namespace Kworker.Bios

open Kworker.Lib

def C_BLUE : UInt32 := 0xff000080
def C_BLUE_LT : UInt32 := 0xff0000aa
def C_GRAY : UInt32 := 0xffc0c0c0
def C_WHITE : UInt32 := 0xffffffff
def C_BLACK : UInt32 := 0xff000000

def PANEL_X : Int := 120
def PANEL_Y : Int := 180
def PANEL_W : Int := 920
def PANEL_H : Int := 640
def MENU_X : Int := PANEL_X + 24
def MENU_Y0 : Int := PANEL_Y + 72
def MENU_DY : Int := 44
def FOOTER_Y : Int := 980

def KH_BIOS_HW_INFO_LINES : Nat := 8
def KH_BIOS_HW_TOGGLE_MAX : Nat := 8

def bytes (s : String) : List UInt8 := utf8 s.toList

/-- What `snprintf` leaves of a text in a buffer of `size` bytes, the zero at its end not counted. -/
def snprintf (size : Nat) (s : List UInt8) : List UInt8 := s.take (size - 1)

/-! ## What the pages call -/

structure Ui where
  mem : Memory
  ui_page_title : List UInt8 := []

section

variable (font : VideoFont) (vp : Option VideoPriv)

def draw_chrome (product page : Option (List UInt8)) (m : Memory) : Memory :=
  let m := fb_fill_rect vp 0 0 BIOS_FB_W BIOS_FB_H C_BLUE m
  let m := fb_fill_rect vp 0 0 BIOS_FB_W 56 C_BLUE_LT m
  let m := draw_text font vp 24 12 (some (bytes "KaihongOS Setup Utility")) C_WHITE C_BLUE_LT m
  let m := draw_text font vp 1200 12 product C_WHITE C_BLUE_LT m
  let m := draw_text font vp 1600 12 page C_WHITE C_BLUE_LT m
  let m := fb_frame vp PANEL_X PANEL_Y PANEL_W PANEL_H C_WHITE C_GRAY m
  let m := fb_fill_rect vp (PANEL_X + 4) (PANEL_Y + 4) (PANEL_W - 8) 48 C_BLUE m
  let m := draw_text font vp (PANEL_X + 16) (PANEL_Y + 12) page C_WHITE C_BLUE m
  fb_fill_rect vp 0 (FOOTER_Y - 8) BIOS_FB_W 88 C_BLUE_LT m

def productName (ops : Option BoardOps) : List UInt8 := bytes ((ops.map (·.product_name)).getD "KaihongOS")

def kh_bios_ui_draw_title (ops : Option BoardOps) (title : Option (List UInt8)) (ui : Ui) : Ui :=
  if vp.isNone then ui
  else
    { mem := draw_chrome font vp (some (productName ops)) (some (title.getD (bytes "Main"))) ui.mem
      ui_page_title := (title.map (snprintf 64)).getD [] }

def kh_bios_ui_draw_line (row col : Nat) (text : Option (List UInt8)) (highlight : Bool) (ui : Ui) : Ui :=
  let y := int (MENU_Y0 + row * MENU_DY)
  let x := int (MENU_X + col * font.BIOS_CHAR_W)
  match vp, text with
  | some _, some text =>
      let buf := snprintf 128 (bytes "  " ++ text)
      if highlight then
        let m := fb_fill_rect vp (PANEL_X + 8) (int (y - 4)) (PANEL_W - 16) (int (font.BIOS_CHAR_H + 8)) C_BLUE ui.mem
        { ui with mem := draw_text font vp x y (some buf) C_WHITE C_BLUE m }
      else { ui with mem := draw_text font vp x y (some buf) C_BLACK C_GRAY ui.mem }
  | _, _ => ui

def kh_bios_ui_draw_footer (hint : Option (List UInt8)) (ui : Ui) : Ui :=
  let hint := hint.getD (bytes "↑↓:Move   Enter:Select   Esc:Exit   F10:Save(setup)")
  { ui with mem := draw_text font vp 24 (FOOTER_Y + 12) (some hint) C_WHITE C_BLUE_LT ui.mem }

end

/-! ## The pages -/

def Screen.title : Screen → String
  | .main _ => "Main"
  | .info _ => "System Information"
  | .boot _ => "Boot Configuration"
  | .hardware _ _ => "Hardware Configuration"
  | .security => "Security"
  | .advanced _ => "Advanced"

def Screen.hint : Screen → String
  | .main _ => "Up/Down: Select  Enter: OK  Esc: Exit"
  | .info _ => "Press any key..."
  | .boot _ => "Enter: Toggle/Select  Esc: Back"
  | .hardware _ _ => "Enter: Toggle  Esc: Back"
  | .security => "Esc: Back"
  | .advanced _ => "Enter: Execute  Esc: Back"

/-- What the loop that is waiting has drawn before it waits. -/
def Setup.draw (font : VideoFont) (vp : Option VideoPriv) (ops : Option BoardOps) (shown : Shown) (s : Setup)
    (ui : Ui) : Ui :=
  let ui := kh_bios_ui_draw_title font vp ops (some (bytes s.screen.title)) ui
  let ui := (s.rows ops shown).foldl (fun ui row =>
    kh_bios_ui_draw_line font vp row.row 0 (some (bytes row.text)) row.highlight ui) ui
  kh_bios_ui_draw_footer font vp (some (bytes s.screen.hint)) ui

/-! ## The setup with its screen -/

/-- `shown` is what the page on the screen was drawn with. -/
structure Console where
  setup : Setup
  shown : Shown
  ui : Ui

/-- `kh_bios_run` has taken over the display, filled it, and drawn the first page. -/
def Console.start (font : VideoFont) (fb : Int) (ops : Option BoardOps) (ram : Env) (shown : Shown) (m : Memory) :
    Console :=
  let setup : Setup := { screen := .main 0, ctx := ctx_load ram, ram }
  let m := fb_fill_rect (some (takeover fb)) 0 0 BIOS_FB_W BIOS_FB_H C_BLUE m
  { setup, shown, ui := setup.draw font (some (takeover fb)) ops shown { mem := m } }

/-- The loops draw their page again after a key; the Security page waits on without. -/
def Setup.redraws (s : Setup) (key : Key) : Bool :=
  key ≠ .none && (s.screen ≠ .security || key = .esc || key = .enter)

/-- A result of `kh_bios_poll_key`, and the lines that the page is drawn with. The machine ends with the
setup. -/
def console (font : VideoFont) (fb : Int) (ops : Option BoardOps) : Machine Console (Key × Shown) where
  step c a :=
    match c.setup.key ops a.1 with
    | .error _ => none
    | .ok setup =>
        if c.setup.redraws a.1 then
          some { setup, shown := a.2, ui := setup.draw font (some (takeover fb)) ops a.2 c.ui }
        else some { c with setup }

/-! ## What is to be seen -/

section

variable (font : VideoFont)

/-- The bar at the top: the title of the page is over the name of the product. -/
def topLook (title product : List UInt8) (p : Int × Int) : UInt32 :=
  (textPicture font 1600 12 title C_WHITE C_BLUE_LT p).getD
    ((textPicture font 1200 12 product C_WHITE C_BLUE_LT p).getD
      ((textPicture font 24 12 (bytes "KaihongOS Setup Utility") C_WHITE C_BLUE_LT p).getD C_BLUE_LT))

def footerLook (hint : List UInt8) (p : Int × Int) : UInt32 :=
  (textPicture font 24 992 hint C_WHITE C_BLUE_LT p).getD C_BLUE_LT

/-- The gray panel with its white border and the title on its blue bar. -/
def panelLook (title : List UInt8) (p : Int × Int) : UInt32 :=
  (textPicture font 136 192 title C_WHITE C_BLUE p).getD
    ((rectPicture 124 184 912 48 C_BLUE p).getD
      ((framePicture 120 180 920 640 C_WHITE C_GRAY p).getD C_BLUE))

/-- The rows of pixels that belong to a row of the menu. -/
def Row.Band (row : Row) (y : Int) : Prop := 248 + 44 * (row.row : Int) ≤ y ∧ y < 292 + 44 * (row.row : Int)

instance (row : Row) (y : Int) : Decidable (row.Band y) := inferInstanceAs (Decidable (_ ∧ _))

/-- Where a highlighted row has its bar. -/
def OnBar (row : Nat) (p : Int × Int) : Prop :=
  128 ≤ p.1 ∧ p.1 < 1032 ∧ 248 + 44 * (row : Int) ≤ p.2 ∧ p.2 < 256 + 44 * (row : Int) + font.BIOS_CHAR_H

instance (row : Nat) (p : Int × Int) : Decidable (OnBar font row p) := inferInstanceAs (Decidable (_ ∧ _))

/-- The text of a row with the buffer that it is printed to. -/
def Row.line (row : Row) : List UInt8 := untilNul (snprintf 128 (bytes "  " ++ bytes row.text))

def Row.fg (row : Row) : UInt32 := if row.highlight then C_WHITE else C_BLACK

def Row.bg (row : Row) : UInt32 := if row.highlight then C_BLUE else C_GRAY

def Row.look (row : Row) (behind : UInt32) (p : Int × Int) : UInt32 :=
  (textPicture font 144 (252 + 44 * (row.row : Int)) row.line row.fg row.bg p).getD
    (if row.highlight = true ∧ OnBar font row.row p then C_BLUE else behind)

/-- The colour of every pixel: the bars at the top and at the bottom, and between them the panel with the
rows, each in its own band. -/
def Setup.look (ops : Option BoardOps) (shown : Shown) (s : Setup) (p : Int × Int) : UInt32 :=
  if p.2 < 56 then topLook font (bytes s.screen.title) (untilNul (productName ops)) p
  else if 972 ≤ p.2 ∧ p.2 < 1060 then footerLook font (bytes s.screen.hint) p
  else
    let behind := panelLook font (bytes s.screen.title) p
    match (s.rows ops shown).find? fun row => row.Band p.2 with
    | some row => row.look font behind p
    | none => behind

end

/-- Every pixel has the colour of the page that waits for a key, whatever was there before; of its items
the selected one, and no other, is on a blue bar. -/
structure Console.Shows (font : VideoFont) (fb : Int) (ops : Option BoardOps) (c : Console) : Prop where
  pixels : ∀ p k, (takeover fb).OnScreen p → 0 ≤ k → k < 4 →
    c.ui.mem ((takeover fb).pixelAddr p + k) = byteOf (c.setup.look font ops c.shown p) k
  selected : ∀ sel count, c.setup.screen.showsItems = true → c.setup.screen.selection ops = some (sel, count) →
    sel < count ∧ ∀ i < count, ∀ p, OnBar font i p →
      if i = sel then c.setup.look font ops c.shown p ∈ [C_WHITE, C_BLUE]
      else c.setup.look font ops c.shown p ∈ [C_BLACK, C_GRAY]

/-- The lines that a board fills in are as many as it is asked for at most, and the texts of the bars fit an
`int` in pixels. -/
structure BoardFits (font : VideoFont) (ops : Option BoardOps) : Prop where
  height : font.BIOS_CHAR_H ≤ 36
  width : 128 * font.BIOS_CHAR_W ≤ 2 ^ 31
  product : ((untilNul (productName ops)).length : Int) * font.BIOS_CHAR_W ≤ 2 ^ 31
  info : ∀ lines, ops.bind (·.fill_sys_info) = some lines → lines.length ≤ KH_BIOS_HW_INFO_LINES
  hardware : ∀ fill env, ops.bind (·.fill_hw_lines) = some fill → (fill env).length ≤ KH_BIOS_HW_TOGGLE_MAX

end Kworker.Bios

import Kworker.Lib.Layout
import Mathlib.Algebra.Group.Int.Defs
import Mathlib.Algebra.Group.Nat.Defs

/-!
# Drawing into the framebuffer

`core/kh_bios_ui_draw.c`: rectangles, frames and text. Memory is a function from addresses to bytes. The
arithmetic of `int` wraps around, once for a whole expression; what is assumed of U-Boot is that the
fields of `struct video_priv` are not negative, and that every byte has a glyph in its font.
-/

namespace Kworker.Bios

open Kworker.Lib

/-! ## `int` -/

def int (v : Int) : Int := Int.bmod v (2 ^ 32)

def IsInt (v : Int) : Prop := -2 ^ 31 ≤ v ∧ v < 2 ^ 31

/-! ## The screen -/

/-- The fields of `struct video_priv` that are used here; `fb` is 0 without a framebuffer. -/
structure VideoPriv where
  fb : Int
  xsize : Nat
  ysize : Nat
  line_length : Nat
  xsize_le : 4 * xsize ≤ line_length
  ysize_lt : ysize < 2 ^ 31
  line_length_lt : line_length < 2 ^ 31

/-- `VIDEO_FONT_CHARS` glyphs, one byte for each of their rows. -/
structure VideoFont where
  VIDEO_FONT_CHARS : Nat
  VIDEO_FONT_WIDTH : Nat
  VIDEO_FONT_HEIGHT : Nat
  video_fontdata : Nat → UInt8
  chars_ge : 256 ≤ VIDEO_FONT_CHARS
  width_pos : 0 < VIDEO_FONT_WIDTH
  height_le : 2 * VIDEO_FONT_HEIGHT ≤ 2 ^ 31

abbrev Memory := Int → UInt8

/-- Byte `k` of a word, the lowest one first. -/
def byteOf (v : UInt32) (k : Int) : UInt8 := (v >>> UInt32.ofNat (8 * k.toNat)).toUInt8

/-- `*(u32 *)a = v` -/
def store32 (a : Int) (v : UInt32) (m : Memory) : Memory := writeBytes 4 (byteOf v) a m

/-! ## Rectangles -/

def fb_fill_rect (vp : Option VideoPriv) (x y w h : Int) (color : UInt32) (m : Memory) : Memory :=
  match vp with
  | none => m
  | some vp =>
      if vp.fb = 0 then m
      else
        loopUp y (min (int (y + h)) vp.ysize) (fun row m =>
          let line := vp.fb + int (row * vp.line_length)
          if row < 0 then m
          else
            loopUp x (min (int (x + w)) vp.xsize) (fun col m =>
              if col ≥ 0 then store32 (line + 4 * col) color m else m) m) m

def fb_frame (vp : Option VideoPriv) (x y w h : Int) (outer inner : UInt32) (m : Memory) : Memory :=
  let m := fb_fill_rect vp x y w 2 outer m
  let m := fb_fill_rect vp x (int (y + h - 2)) w 2 outer m
  let m := fb_fill_rect vp x y 2 h outer m
  let m := fb_fill_rect vp (int (x + w - 2)) y 2 h outer m
  fb_fill_rect vp (int (x + 2)) (int (y + 2)) (int (w - 4)) (int (h - 4)) inner m

/-! ## Text -/

def BIOS_FONT_SCALE : Int := 2

def VideoFont.BIOS_CHAR_W (font : VideoFont) : Int := font.VIDEO_FONT_WIDTH * BIOS_FONT_SCALE

def VideoFont.BIOS_CHAR_H (font : VideoFont) : Int := font.VIDEO_FONT_HEIGHT * BIOS_FONT_SCALE

/-- The square of pixels for one bit of a glyph. -/
def drawBit (vp : VideoPriv) (px py : Int) (color : UInt32) (m : Memory) : Memory :=
  loopUp 0 BIOS_FONT_SCALE (fun j m =>
    if int (py + j) ≥ vp.ysize ∨ int (py + j) < 0 then m
    else
      let line := vp.fb + int (int (py + j) * vp.line_length)
      loopUp 0 BIOS_FONT_SCALE (fun i m =>
        if int (px + i) ≥ 0 ∧ int (px + i) < vp.xsize then store32 (line + 4 * int (px + i)) color m
        else m) m) m

/-- One row of a glyph; `bits` is shifted after each of its bits. -/
def drawGlyphRow (font : VideoFont) (vp : VideoPriv) (x y row : Int) (bits : UInt8) (fg bg : UInt32)
    (m : Memory) : Memory :=
  (loopUp 0 font.VIDEO_FONT_WIDTH (fun col (s : Memory × UInt8) =>
    let color := if s.2 &&& 0x80 ≠ 0 then fg else bg
    let px := int (x + col * BIOS_FONT_SCALE)
    let py := int (y + row * BIOS_FONT_SCALE)
    (drawBit vp px py color s.1, s.2 <<< 1)) (m, bits)).1

def draw_char_at (font : VideoFont) (vp : Option VideoPriv) (x y : Int) (ch : UInt8) (fg bg : UInt32)
    (m : Memory) : Memory :=
  match vp with
  | none => m
  | some vp =>
      if (ch.toNat : Int) < 0 ∨ ch.toNat ≥ font.VIDEO_FONT_CHARS then m
      else
        loopUp 0 font.VIDEO_FONT_HEIGHT (fun row m =>
          let bits := font.video_fontdata (ch.toNat * font.VIDEO_FONT_HEIGHT + row.toNat)
          drawGlyphRow font vp x y row bits fg bg m) m

/-- The loop of `draw_text` from the character `i` on. -/
def drawChars (font : VideoFont) (vp : VideoPriv) (x y : Int) (fg bg : UInt32) (i : Nat) :
    List UInt8 → Memory → Memory
  | [], m => m
  | c :: s, m =>
      if c = 0 then m
      else
        drawChars font vp x y fg bg (i + 1) s
          (draw_char_at font (some vp) (int (x + i * font.BIOS_CHAR_W)) y c fg bg m)

/-- The characters of a string, which ends at a zero or with the bytes. -/
def untilNul (s : List UInt8) : List UInt8 := s.takeWhile (· ≠ 0)

def draw_text (font : VideoFont) (vp : Option VideoPriv) (x y : Int) (s : Option (List UInt8))
    (fg bg : UInt32) (m : Memory) : Memory :=
  match vp, s with
  | some vp, some s => drawChars font vp x y fg bg 0 s m
  | _, _ => m

/-! ## Pictures -/

/-- What is written to the pixel at column `p.1` of row `p.2`, if anything. -/
abbrev Picture := Int × Int → Option UInt32

def rectPicture (x y w h : Int) (color : UInt32) : Picture := fun p =>
  if x ≤ p.1 ∧ p.1 < x + w ∧ y ≤ p.2 ∧ p.2 < y + h then some color else none

/-- A border of two pixels around the inner colour. -/
def framePicture (x y w h : Int) (outer inner : UInt32) : Picture := fun p =>
  if x ≤ p.1 ∧ p.1 < x + w ∧ y ≤ p.2 ∧ p.2 < y + h then
    if x + 2 ≤ p.1 ∧ p.1 < x + w - 2 ∧ y + 2 ≤ p.2 ∧ p.2 < y + h - 2 then some inner else some outer
  else none

/-- The bit of a glyph at a place of its bitmap. -/
def VideoFont.bit (font : VideoFont) (ch : UInt8) (row col : Int) : Bool :=
  (font.video_fontdata (ch.toNat * font.VIDEO_FONT_HEIGHT + row.toNat)).toBitVec.getMsbD col.toNat

/-- The cells of the characters of `s` side by side, each with its glyph scaled by two. -/
def textPicture (font : VideoFont) (x y : Int) (s : List UInt8) (fg bg : UInt32) : Picture := fun p =>
  if x ≤ p.1 ∧ y ≤ p.2 ∧ p.2 < y + font.BIOS_CHAR_H then
    s[((p.1 - x) / font.BIOS_CHAR_W).toNat]?.map fun ch =>
      if font.bit ch ((p.2 - y) / 2) ((p.1 - x) % font.BIOS_CHAR_W / 2) then fg else bg
  else none

/-! ## Pixels in memory -/

/-- The pixel at column `p.1` of row `p.2` is on the screen. -/
def VideoPriv.OnScreen (vp : VideoPriv) (p : Int × Int) : Prop :=
  0 ≤ p.1 ∧ p.1 < vp.xsize ∧ 0 ≤ p.2 ∧ p.2 < vp.ysize

def VideoPriv.pixelAddr (vp : VideoPriv) (p : Int × Int) : Int := vp.fb + p.2 * vp.line_length + 4 * p.1

theorem line_le {r r' L : Int} (hL : 0 ≤ L) (h : r < r') : r * L + L ≤ r' * L := by
  have hle := Int.mul_le_mul_of_nonneg_right (Int.add_one_le_of_lt h) hL
  rwa [Int.add_mul, Int.one_mul] at hle

/-- A line holds its pixels, and the next one begins after it. -/
theorem VideoPriv.pixel_disjoint (vp : VideoPriv) (p q : Int × Int) (k l : Int) (hp : vp.OnScreen p)
    (hq : vp.OnScreen q) (hk : 0 ≤ k) (hk4 : k < 4) (hl : 0 ≤ l) (hl4 : l < 4)
    (h : vp.pixelAddr p + k = vp.pixelAddr q + l) : p = q := by
  obtain ⟨hp0, hpx, _, _⟩ := hp
  obtain ⟨hq0, hqx, _, _⟩ := hq
  unfold pixelAddr at h
  have hline := vp.xsize_le
  have hrow : p.2 = q.2 := by
    rcases lt_trichotomy p.2 q.2 with hlt | heq | hgt
    · have hnext := line_le (Int.natCast_nonneg vp.line_length) hlt
      omega
    · exact heq
    · have hnext := line_le (Int.natCast_nonneg vp.line_length) hgt
      omega
  rw [hrow] at h
  exact Prod.ext (by omega) hrow

def VideoPriv.layout (vp : VideoPriv) : Layout (Int × Int) UInt32 UInt8 where
  On := vp.OnScreen
  addr := vp.pixelAddr
  size := 4
  byte := byteOf
  disjoint := vp.pixel_disjoint

/-- The offset of every line is an `int`. -/
def VideoPriv.OffsetsFit (vp : VideoPriv) : Prop := IsInt ((vp.ysize - 1) * vp.line_length)

def BIOS_FB_W : Nat := 1920

def BIOS_FB_H : Nat := 1080

/-- The fields as `kh_bios_ui_display_takeover` leaves them, with four bytes a pixel. -/
def takeover (fb : Int) : VideoPriv where
  fb
  xsize := BIOS_FB_W
  ysize := BIOS_FB_H
  line_length := BIOS_FB_W * 4
  xsize_le := by decide
  ysize_lt := by decide
  line_length_lt := by decide

theorem takeover_offsetsFit (fb : Int) : (takeover fb).OffsetsFit := by
  have hlast : IsInt (((BIOS_FB_H : Nat) - 1 : Int) * (BIOS_FB_W * 4 : Nat)) := ⟨by decide, by decide⟩
  exact hlast

end Kworker.Bios

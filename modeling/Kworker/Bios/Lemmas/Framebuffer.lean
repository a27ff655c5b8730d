import Kworker.Bios.Framebuffer
import Mathlib.Data.List.TakeWhile

/-!
# Drawing into the framebuffer
-/

namespace Kworker.Bios

open Kworker.Lib Layout

variable {vp : VideoPriv} {font : VideoFont} {x y w h row lo hi : Int} {color fg bg : UInt32} {m : Memory}

/-! ## `int` -/

theorem int_of_isInt {v : Int} (hv : IsInt v) : int v = v := by
  obtain ⟨hlow, hhigh⟩ := hv
  rw [int, Int.bmod_def]
  omega

theorem int_add (a b : Int) : int (int a + b) = int (a + b) := Int.bmod_add_bmod

/-- Up to 2^32, what does not fit is negative. -/
theorem int_cases {v : Int} (hlow : -2 ^ 31 ≤ v) (hhigh : v < 2 ^ 32) : int v = v ∨ 2 ^ 31 ≤ v ∧ int v < 0 := by
  rw [int, Int.bmod_def]
  omega

/-! ## The pixels of a line -/

theorem or_ite {A B : Prop} [Decidable A] [Decidable B] {α : Type} (v : α) :
    (if A then some v else none).or (if B then some v else none) = if A ∨ B then some v else none := by
  by_cases hA : A
  · simp [hA]
  · simp [hA]

theorem line_offset (hvp : vp.OffsetsFit) (h0 : 0 ≤ row) (hrow : row < vp.ysize) :
    int (row * vp.line_length) = row * vp.line_length := by
  have hle : row * (vp.line_length : Int) ≤ (vp.ysize - 1) * vp.line_length :=
    Int.mul_le_mul_of_nonneg_right (by omega) (Int.natCast_nonneg _)
  have hpos : 0 ≤ row * (vp.line_length : Int) := Int.mul_nonneg h0 (Int.natCast_nonneg _)
  exact int_of_isInt ⟨by omega, lt_of_le_of_lt hle hvp.2⟩

theorem draws_store (hvp : vp.OffsetsFit) {p : Int × Int} (hp : vp.OnScreen p) :
    vp.layout.Draws (fun q => if q = p then some color else none) m
      (store32 (vp.fb + int (p.2 * vp.line_length) + 4 * p.1) color m) := by
  rw [line_offset hvp hp.2.2.1 hp.2.2.2]
  exact draws_cell (L := vp.layout) hp color

/-- The pixels from column `left` to `right` and from row `top` to `bottom`, the ends not included. -/
def box (left right top bottom : Int) (color : UInt32) : Picture := fun p =>
  if left ≤ p.1 ∧ p.1 < right ∧ top ≤ p.2 ∧ p.2 < bottom then some color else none

theorem draws_line (hvp : vp.OffsetsFit) (h0 : 0 ≤ row) (hrow : row < vp.ysize) (hhi : hi ≤ vp.xsize) :
    vp.layout.Draws (box lo hi row (row + 1) color) m
      (loopUp lo hi (fun col m =>
        if col ≥ 0 then store32 (vp.fb + int (row * vp.line_length) + 4 * col) color m else m) m) := by
  by_cases hle : lo ≤ hi
  · apply draws_loopUp (P := fun col => box lo col row (row + 1) color) hle
    · intro p _
      exact if_neg (by omega)
    · intro col m hlo hcol
      by_cases hpos : col ≥ 0
      · rw [if_pos hpos]
        refine ⟨_, draws_store (p := (col, row)) hvp ⟨hpos, by omega, h0, hrow⟩, fun p _ => ?_⟩
        rw [box, or_ite]
        exact if_congr (by rw [Prod.ext_iff]; omega) rfl rfl
      · rw [if_neg hpos]
        refine draws_skip fun p hp => ?_
        have hcol : 0 ≤ p.1 := hp.1
        exact if_congr (by omega) rfl rfl
  · rw [loopUp_nil (by omega)]
    exact draws_nothing fun p _ => if_neg (by omega)

/-! ## Rectangles -/

theorem draws_fill_rect (hfb : vp.fb ≠ 0) (hvp : vp.OffsetsFit) (hright : IsInt (x + w))
    (hbottom : IsInt (y + h)) :
    vp.layout.Draws (rectPicture x y w h color) m (fb_fill_rect (some vp) x y w h color m) := by
  have hclip : ∀ p, vp.layout.On p →
      box x (min (x + w) vp.xsize) y (min (y + h) vp.ysize) color p = rectPicture x y w h color p := by
    rintro p ⟨_, hx, _, hy⟩
    exact if_congr (by omega) rfl rfl
  unfold fb_fill_rect
  simp only [if_neg hfb, int_of_isInt hright, int_of_isInt hbottom]
  by_cases hle : y ≤ min (y + h) vp.ysize
  · refine (draws_loopUp (P := fun row => box x (min (x + w) vp.xsize) y row color) hle ?_ ?_).congr hclip
    · intro p _
      exact if_neg (by omega)
    · intro row m hlo hrow
      by_cases hneg : row < 0
      · rw [if_pos hneg]
        refine draws_skip fun p hp => ?_
        have hrow : 0 ≤ p.2 := hp.2.2.1
        exact if_congr (by omega) rfl rfl
      · rw [if_neg hneg]
        refine ⟨_, draws_line hvp (by omega) (by omega) (min_le_right _ _), fun p _ => ?_⟩
        rw [box, box, or_ite]
        exact if_congr (by omega) rfl rfl
  · rw [loopUp_nil (by omega)]
    refine draws_nothing fun p hp => ?_
    obtain ⟨_, hx, _, hy⟩ := hp
    exact if_neg (by omega)

/-- Four bars and what is between them; the bars overlap in the corners. -/
theorem frame_pictures (hw : 4 ≤ w) (hh : 4 ≤ h) (outer inner : UInt32) (p : Int × Int) :
    (rectPicture (x + 2) (y + 2) (w - 4) (h - 4) inner p).or
      ((rectPicture (x + w - 2) y 2 h outer p).or
        ((rectPicture x y 2 h outer p).or
          ((rectPicture x (y + h - 2) w 2 outer p).or (rectPicture x y w 2 outer p)))) =
    framePicture x y w h outer inner p := by
  simp only [rectPicture, framePicture, or_ite]
  by_cases hinner : x + 2 ≤ p.1 ∧ p.1 < x + w - 2 ∧ y + 2 ≤ p.2 ∧ p.2 < y + h - 2
  · have hlast : x + 2 ≤ p.1 ∧ p.1 < x + 2 + (w - 4) ∧ y + 2 ≤ p.2 ∧ p.2 < y + 2 + (h - 4) := by omega
    have hwhole : x ≤ p.1 ∧ p.1 < x + w ∧ y ≤ p.2 ∧ p.2 < y + h := by omega
    rw [if_pos hinner, if_pos hlast, if_pos hwhole, Option.some_or]
  · have hlast : ¬(x + 2 ≤ p.1 ∧ p.1 < x + 2 + (w - 4) ∧ y + 2 ≤ p.2 ∧ p.2 < y + 2 + (h - 4)) := by omega
    rw [if_neg hinner, if_neg hlast, Option.none_or]
    exact if_congr (by omega) rfl rfl

theorem draws_frame (hfb : vp.fb ≠ 0) (hvp : vp.OffsetsFit) (hx : IsInt x) (hy : IsInt y) (hw : IsInt w)
    (hh : IsInt h) (hright : IsInt (x + w)) (hbottom : IsInt (y + h)) (hw4 : 4 ≤ w) (hh4 : 4 ≤ h)
    (outer inner : UInt32) :
    vp.layout.Draws (framePicture x y w h outer inner) m (fb_frame (some vp) x y w h outer inner m) := by
  obtain ⟨hxlow, hxhigh⟩ := hx
  obtain ⟨hylow, hyhigh⟩ := hy
  obtain ⟨hwlow, hwhigh⟩ := hw
  obtain ⟨hhlow, hhhigh⟩ := hh
  obtain ⟨hrlow, hrhigh⟩ := hright
  obtain ⟨hblow, hbhigh⟩ := hbottom
  have hbar : int (y + h - 2) = y + h - 2 := int_of_isInt ⟨by omega, by omega⟩
  have hside : int (x + w - 2) = x + w - 2 := int_of_isInt ⟨by omega, by omega⟩
  have hleft : int (x + 2) = x + 2 := int_of_isInt ⟨by omega, by omega⟩
  have htop : int (y + 2) = y + 2 := int_of_isInt ⟨by omega, by omega⟩
  have hwidth : int (w - 4) = w - 4 := int_of_isInt ⟨by omega, by omega⟩
  have hheight : int (h - 4) = h - 4 := int_of_isInt ⟨by omega, by omega⟩
  unfold fb_frame
  simp only [hbar, hside, hleft, htop, hwidth, hheight]
  have hrect (x y w h : Int) (color : UInt32) (m : Memory) (hr : IsInt (x + w)) (hb : IsInt (y + h)) :
      vp.layout.Draws (rectPicture x y w h color) m (fb_fill_rect (some vp) x y w h color m) :=
    draws_fill_rect hfb hvp hr hb
  have htopBar := fun m => hrect x y w 2 outer m ⟨by omega, by omega⟩ ⟨by omega, by omega⟩
  have hbottomBar := fun m => hrect x (y + h - 2) w 2 outer m ⟨by omega, by omega⟩ ⟨by omega, by omega⟩
  have hleftBar := fun m => hrect x y 2 h outer m ⟨by omega, by omega⟩ ⟨by omega, by omega⟩
  have hrightBar := fun m => hrect (x + w - 2) y 2 h outer m ⟨by omega, by omega⟩ ⟨by omega, by omega⟩
  have hinside := fun m =>
    hrect (x + 2) (y + 2) (w - 4) (h - 4) inner m ⟨by omega, by omega⟩ ⟨by omega, by omega⟩
  exact (((((htopBar m).trans (hbottomBar _)).trans (hleftBar _)).trans (hrightBar _)).trans (hinside _)).congr
    fun p _ => frame_pictures hw4 hh4 outer inner p

/-! ## The squares of a glyph -/

/-- A pixel whose column is computed: when it does not fit an `int` it is neither on the screen nor taken
to be. -/
theorem draws_pixel (hvp : vp.OffsetsFit) {v : Int} (hlow : -2 ^ 31 ≤ v) (hhigh : v < 2 ^ 32) (h0 : 0 ≤ row)
    (hrow : row < vp.ysize) :
    vp.layout.Draws (box v (v + 1) row (row + 1) color) m
      (if int v ≥ 0 ∧ int v < vp.xsize then
        store32 (vp.fb + int (row * vp.line_length) + 4 * int v) color m
      else m) := by
  have hline := vp.xsize_le
  have hlength := vp.line_length_lt
  have hint := int_cases hlow hhigh
  split_ifs with hon
  · have hv : int v = v := by omega
    rw [hv] at hon ⊢
    refine (draws_store (p := (v, row)) hvp ⟨hon.1, hon.2, h0, hrow⟩).congr fun p _ => ?_
    exact if_congr (by rw [Prod.ext_iff]; omega) rfl rfl
  · refine draws_nothing fun p hp => ?_
    obtain ⟨h0, hx, _, _⟩ := hp
    exact if_neg (by omega)

theorem draws_bit (hvp : vp.OffsetsFit) (hx : -2 ^ 31 ≤ x) (hx2 : x + 2 ≤ 2 ^ 32) (hy : -2 ^ 31 ≤ y)
    (hy2 : y + 2 ≤ 2 ^ 32) :
    vp.layout.Draws (box x (x + 2) y (y + 2) color) m (drawBit vp (int x) (int y) color m) := by
  unfold drawBit
  simp only [BIOS_FONT_SCALE, int_add]
  apply draws_loopUp (P := fun j => box x (x + 2) y (y + j) color) (by omega)
  · intro p _
    exact if_neg (by omega)
  · intro j m hj0 hj
    have hysize := vp.ysize_lt
    have hint := int_cases (v := y + j) (by omega) (by omega)
    by_cases hoff : int (y + j) ≥ vp.ysize ∨ int (y + j) < 0
    · rw [if_pos hoff]
      refine draws_skip fun p hp => ?_
      obtain ⟨_, _, hrow0, hrow⟩ := hp
      exact if_congr (by omega) rfl rfl
    · have hv : int (y + j) = y + j := by omega
      rw [if_neg hoff]
      rw [hv] at hoff ⊢
      refine ⟨box x (x + 2) (y + j) (y + j + 1) color, ?_, fun p _ => ?_⟩
      · apply draws_loopUp (P := fun i => box x (x + i) (y + j) (y + j + 1) color) (by omega)
        · intro p _
          exact if_neg (by omega)
        · intro i m hi0 hi
          refine ⟨_, draws_pixel hvp (by omega) (by omega) (by omega) (by omega), fun p _ => ?_⟩
          rw [box, box, or_ite]
          exact if_congr (by omega) rfl rfl
      · rw [box, box, or_ite]
        exact if_congr (by omega) rfl rfl

/-! ## Characters -/

/-- A bitmap scaled by two. -/
def glyphPicture (bit : Int → Int → Bool) (x y width height : Int) (fg bg : UInt32) : Picture := fun p =>
  if x ≤ p.1 ∧ p.1 < x + width * 2 ∧ y ≤ p.2 ∧ p.2 < y + height * 2 then
    some (if bit ((p.2 - y) / 2) ((p.1 - x) / 2) then fg else bg)
  else none

theorem testBit_iff (b : UInt8) : b &&& 0x80 ≠ 0 ↔ b.toBitVec.msb = true := by
  have key : ∀ v : BitVec 8, v &&& 0x80#8 ≠ 0#8 ↔ v.msb = true := by decide
  rw [← key, ne_eq, ne_eq, ← UInt8.toBitVec_inj]
  rfl

/-- The square of one bit beside those of the bits before it. -/
theorem glyph_beside (bits : Int → Int → Bool) {col : Int} (hcol : 0 ≤ col) (p : Int × Int) :
    (box (x + col * 2) (x + col * 2 + 2) y (y + 2) (if bits 0 col then fg else bg) p).or
      (glyphPicture bits x y col 1 fg bg p) = glyphPicture bits x y (col + 1) 1 fg bg p := by
  unfold box glyphPicture
  by_cases hnew : x + col * 2 ≤ p.1 ∧ p.1 < x + col * 2 + 2 ∧ y ≤ p.2 ∧ p.2 < y + 2
  · have hrow : (p.2 - y) / 2 = 0 := by omega
    have hplace : (p.1 - x) / 2 = col := by omega
    have hin : x ≤ p.1 ∧ p.1 < x + (col + 1) * 2 ∧ y ≤ p.2 ∧ p.2 < y + 1 * 2 := by omega
    rw [if_pos hnew, Option.some_or, if_pos hin, hrow, hplace]
  · rw [if_neg hnew, Option.none_or]
    exact if_congr (by omega) rfl rfl

/-- The bits of a row come to the top one after the other. -/
theorem draws_glyph_row (hvp : vp.OffsetsFit) (hx : -2 ^ 31 ≤ x)
    (hxw : x + font.VIDEO_FONT_WIDTH * 2 ≤ 2 ^ 32) (hy : -2 ^ 31 ≤ y + row * 2) (hyh : y + row * 2 + 2 ≤ 2 ^ 32)
    (bits : UInt8) :
    vp.layout.Draws
      (glyphPicture (fun _ col => bits.toBitVec.getMsbD col.toNat) x (y + row * 2) font.VIDEO_FONT_WIDTH 1 fg bg)
      m (drawGlyphRow font vp (int x) y row bits fg bg m) := by
  unfold drawGlyphRow
  simp only [BIOS_FONT_SCALE, int_add]
  refine (loopUp_invariant (Int.natCast_nonneg font.VIDEO_FONT_WIDTH)
    (I := fun col (s : Memory × UInt8) =>
      vp.layout.Draws (glyphPicture (fun _ col => bits.toBitVec.getMsbD col.toNat) x (y + row * 2) col 1 fg bg)
        m s.1 ∧ s.2.toBitVec = bits.toBitVec <<< col.toNat)
    ⟨draws_nothing fun p _ => if_neg (by omega), by simp⟩ ?_).1
  rintro col ⟨m', b⟩ hcol0 hcol ⟨hdrawn, hb⟩
  have hcolor : (if b &&& 0x80 ≠ 0 then fg else bg) =
      if bits.toBitVec.getMsbD col.toNat = true then fg else bg :=
    if_congr (by rw [testBit_iff, hb, BitVec.msb_shiftLeft]) rfl rfl
  constructor
  · rw [hcolor]
    exact (hdrawn.trans (draws_bit hvp (by omega) (by omega) hy hyh)).congr
      fun p _ => glyph_beside (fun _ col => bits.toBitVec.getMsbD col.toNat) hcol0 p
  · have hnext : (col + 1).toNat = col.toNat + 1 := by omega
    rw [UInt8.toBitVec_shiftLeft, hb, hnext, BitVec.shiftLeft_add]
    rfl

/-- One row of a glyph below the rows before it. -/
theorem glyph_below (bit : Int → Int → Bool) {width row : Int} (hrow : 0 ≤ row) (p : Int × Int) :
    (glyphPicture (fun _ col => bit row col) x (y + row * 2) width 1 fg bg p).or
      (glyphPicture bit x y width row fg bg p) = glyphPicture bit x y width (row + 1) fg bg p := by
  unfold glyphPicture
  by_cases hnew : x ≤ p.1 ∧ p.1 < x + width * 2 ∧ y + row * 2 ≤ p.2 ∧ p.2 < y + row * 2 + 1 * 2
  · have hplace : (p.2 - y) / 2 = row := by omega
    have hin : x ≤ p.1 ∧ p.1 < x + width * 2 ∧ y ≤ p.2 ∧ p.2 < y + (row + 1) * 2 := by omega
    rw [if_pos hnew, Option.some_or, if_pos hin, hplace]
  · rw [if_neg hnew, Option.none_or]
    exact if_congr (by omega) rfl rfl

theorem draws_char (hvp : vp.OffsetsFit) (hx : -2 ^ 31 ≤ x) (hxw : x + font.BIOS_CHAR_W ≤ 2 ^ 32)
    (hy : IsInt y) (ch : UInt8) (fg bg : UInt32) (m : Memory) :
    vp.layout.Draws (glyphPicture (font.bit ch) x y font.VIDEO_FONT_WIDTH font.VIDEO_FONT_HEIGHT fg bg) m
      (draw_char_at font (some vp) (int x) y ch fg bg m) := by
  obtain ⟨hylow, hyhigh⟩ := hy
  have hchars := font.chars_ge
  have hheight := font.height_le
  have hch := ch.toNat_lt
  have hdrawn : ¬((ch.toNat : Int) < 0 ∨ ch.toNat ≥ font.VIDEO_FONT_CHARS) := by omega
  unfold draw_char_at
  simp only [if_neg hdrawn]
  apply draws_loopUp
    (P := fun row => glyphPicture (font.bit ch) x y font.VIDEO_FONT_WIDTH row fg bg) (Int.natCast_nonneg _)
  · intro p _
    exact if_neg (by omega)
  · intro row m hrow0 hrow
    exact ⟨_, draws_glyph_row hvp hx hxw (by omega) (by omega) _, fun p _ => glyph_below (font.bit ch) hrow0 p⟩

/-! ## Text -/

theorem textPicture_nil (p : Int × Int) : textPicture font x y [] fg bg p = none := by
  simp [textPicture]

theorem char_w_pos (font : VideoFont) : 0 < font.BIOS_CHAR_W := by
  have hpos := font.width_pos
  unfold VideoFont.BIOS_CHAR_W BIOS_FONT_SCALE
  omega

/-- The cell of the first character, and those of the others beside it. -/
theorem textPicture_cons (c : UInt8) (s : List UInt8) (p : Int × Int) :
    (textPicture font (x + font.BIOS_CHAR_W) y s fg bg p).or
      (glyphPicture (font.bit c) x y font.VIDEO_FONT_WIDTH font.VIDEO_FONT_HEIGHT fg bg p) =
    textPicture font x y (c :: s) fg bg p := by
  have hpos := char_w_pos font
  have hwidth : font.BIOS_CHAR_W = font.VIDEO_FONT_WIDTH * 2 := rfl
  have hheight : font.BIOS_CHAR_H = font.VIDEO_FONT_HEIGHT * 2 := rfl
  unfold textPicture glyphPicture
  rw [← hwidth, ← hheight]
  by_cases hrows : y ≤ p.2 ∧ p.2 < y + font.BIOS_CHAR_H
  · rcases lt_trichotomy p.1 x with hleft | hcell
    · rw [if_neg (by omega), if_neg (by omega), if_neg (by omega), Option.none_or]
    · by_cases hfirst : p.1 < x + font.BIOS_CHAR_W
      · have hindex : (p.1 - x) / font.BIOS_CHAR_W = 0 := Int.ediv_eq_zero_of_lt (by omega) (by omega)
        have hcol : (p.1 - x) % font.BIOS_CHAR_W = p.1 - x := Int.emod_eq_of_lt (by omega) (by omega)
        have hin : x ≤ p.1 ∧ y ≤ p.2 ∧ p.2 < y + font.BIOS_CHAR_H := ⟨by omega, hrows⟩
        have hcell : x ≤ p.1 ∧ p.1 < x + font.BIOS_CHAR_W ∧ y ≤ p.2 ∧ p.2 < y + font.BIOS_CHAR_H :=
          ⟨by omega, hfirst, hrows⟩
        rw [if_neg (by omega), Option.none_or, if_pos hcell, if_pos hin, hindex, hcol]
        rfl
      · have hshift : p.1 - x = p.1 - (x + font.BIOS_CHAR_W) + 1 * font.BIOS_CHAR_W := by omega
        have hindex : (p.1 - x) / font.BIOS_CHAR_W = (p.1 - (x + font.BIOS_CHAR_W)) / font.BIOS_CHAR_W + 1 := by
          rw [hshift, Int.add_mul_ediv_right _ _ hpos.ne']
        have hcol : (p.1 - x) % font.BIOS_CHAR_W = (p.1 - (x + font.BIOS_CHAR_W)) % font.BIOS_CHAR_W := by
          rw [hshift, Int.add_mul_emod_self_right]
        have hnext : 0 ≤ (p.1 - (x + font.BIOS_CHAR_W)) / font.BIOS_CHAR_W :=
          Int.ediv_nonneg (by omega) hpos.le
        have hplace : ((p.1 - x) / font.BIOS_CHAR_W).toNat =
            ((p.1 - (x + font.BIOS_CHAR_W)) / font.BIOS_CHAR_W).toNat + 1 := by omega
        rw [if_pos (by omega), if_neg (by omega), Option.or_none, if_pos (by omega), hplace, hcol,
          List.getElem?_cons_succ]
  · rw [if_neg (by omega), if_neg (by omega), if_neg (by omega), Option.none_or]

theorem untilNul_cons {c : UInt8} (hc : c ≠ 0) (s : List UInt8) : untilNul (c :: s) = c :: untilNul s :=
  List.takeWhile_cons_of_pos (by simpa using hc)

theorem drawChars_cons {c : UInt8} (hc : c ≠ 0) (i : Nat) (s : List UInt8) :
    drawChars font vp x y fg bg i (c :: s) m = drawChars font vp x y fg bg (i + 1) s
      (draw_char_at font (some vp) (int (x + i * font.BIOS_CHAR_W)) y c fg bg m) := if_neg hc

theorem draws_chars (hvp : vp.OffsetsFit) (hx : IsInt x) (hy : IsInt y) (s : List UInt8) (i : Nat)
    (hwidth : x + (i + (untilNul s).length) * font.BIOS_CHAR_W ≤ 2 ^ 32) (fg bg : UInt32) (m : Memory) :
    vp.layout.Draws (textPicture font (x + i * font.BIOS_CHAR_W) y (untilNul s) fg bg) m
      (drawChars font vp x y fg bg i s m) := by
  induction s generalizing i m with
  | nil => exact draws_nothing fun p _ => textPicture_nil p
  | cons c s ih =>
      by_cases hc : c = 0
      · subst hc
        exact draws_nothing fun p _ => textPicture_nil p
      · have hpos := char_w_pos font
        have hlow : 0 ≤ (i : Int) * font.BIOS_CHAR_W := Int.mul_nonneg (Int.natCast_nonneg i) hpos.le
        have hmore : 0 ≤ ((untilNul s).length : Int) * font.BIOS_CHAR_W :=
          Int.mul_nonneg (Int.natCast_nonneg _) hpos.le
        have hsum : ((i : Int) + ((untilNul s).length + 1)) * font.BIOS_CHAR_W =
            i * font.BIOS_CHAR_W + (untilNul s).length * font.BIOS_CHAR_W + font.BIOS_CHAR_W := by
          rw [Int.add_mul, Int.add_mul, Int.one_mul, Int.add_assoc]
        have hnext : x + ((i + 1 : Nat) : Int) * font.BIOS_CHAR_W =
            x + i * font.BIOS_CHAR_W + font.BIOS_CHAR_W := by
          rw [Int.natCast_add, Int.natCast_one, Int.add_mul, Int.one_mul, Int.add_assoc]
        rw [untilNul_cons hc, List.length_cons, Int.natCast_add, Int.natCast_one, hsum] at hwidth
        have hcell : x + i * font.BIOS_CHAR_W + font.BIOS_CHAR_W ≤ 2 ^ 32 := by omega
        have hrest := ih (i + 1) (by rw [Int.add_mul, ← Int.add_assoc, hnext]; omega)
          (draw_char_at font (some vp) (int (x + i * font.BIOS_CHAR_W)) y c fg bg m)
        rw [hnext] at hrest
        have hxlow := hx.1
        have hchar := draws_char hvp (by omega) hcell hy c fg bg m
        rw [drawChars_cons hc, untilNul_cons hc]
        exact (hchar.trans hrest).congr fun p _ => textPicture_cons c _ p

theorem draws_text (hvp : vp.OffsetsFit) (hx : IsInt x) (hy : IsInt y) {s : List UInt8}
    (hwidth : (untilNul s).length * font.BIOS_CHAR_W ≤ 2 ^ 31) :
    vp.layout.Draws (textPicture font x y (untilNul s) fg bg) m
      (draw_text font (some vp) x y (some s) fg bg m) := by
  have hend : x + (((0 : Nat) : Int) + (untilNul s).length) * font.BIOS_CHAR_W ≤ 2 ^ 32 := by
    have hlow := hx.2
    rw [Int.natCast_zero, Int.zero_add]
    omega
  have hdrawn := draws_chars hvp hx hy s 0 hend fg bg m
  rwa [Int.natCast_zero, Int.zero_mul, Int.add_zero] at hdrawn

/-! ## What does not fit -/

/-- The last character is drawn last. -/
theorem drawChars_concat {c : UInt8} (hc : c ≠ 0) (s : List UInt8) (hs : ∀ d ∈ s, d ≠ 0) (i : Nat) :
    drawChars font vp x y fg bg i (s ++ [c]) m =
      draw_char_at font (some vp) (int (x + (i + s.length : Nat) * font.BIOS_CHAR_W)) y c fg bg
        (drawChars font vp x y fg bg i s m) := by
  induction s generalizing i m with
  | nil => exact drawChars_cons hc i []
  | cons d s ih =>
      have hd : d ≠ 0 := hs d List.mem_cons_self
      have hlength : i + (d :: s).length = i + 1 + s.length := by rw [List.length_cons]; omega
      rw [List.cons_append, drawChars_cons hd, drawChars_cons hd, hlength]
      exact ih (fun e he => hs e (List.mem_cons_of_mem _ he)) (i + 1)

theorem untilNul_eq {s : List UInt8} (hs : ∀ d ∈ s, d ≠ 0) : untilNul s = s :=
  List.takeWhile_eq_self_iff.mpr fun d hd => by simpa using hs d hd

/-- Different bits show, if the colours differ. -/
theorem colors_ne {a c : Bool} (h : a ≠ c) (hcolors : byteOf fg 0 ≠ byteOf bg 0) :
    byteOf (if a then fg else bg) 0 ≠ byteOf (if c then fg else bg) 0 := by
  cases a with
  | true => rwa [Bool.eq_false_iff.mpr (Ne.symm h), if_pos rfl, if_neg Bool.false_ne_true]
  | false =>
      rw [Bool.eq_true_of_not_eq_false (Ne.symm h), if_pos rfl, if_neg Bool.false_ne_true]
      exact Ne.symm hcolors

/-- A text that is so wide that its last cell wraps around to the first one: the two show different
bits. -/
theorem text_wraps (hvp : vp.OffsetsFit) (hon : vp.OnScreen (0, 0)) {s : List UInt8} {a c : UInt8}
    (hs : ∀ d ∈ a :: s, d ≠ 0) (hc : c ≠ 0) (hwidth : ((a :: s).length : Int) * font.BIOS_CHAR_W = 2 ^ 32)
    (hheight : 0 < font.VIDEO_FONT_HEIGHT) (hbits : font.bit a 0 0 ≠ font.bit c 0 0)
    (hcolors : byteOf fg 0 ≠ byteOf bg 0) :
    ¬ vp.layout.Draws (textPicture font 0 0 (untilNul (a :: s ++ [c])) fg bg) m
      (draw_text font (some vp) 0 0 (some (a :: s ++ [c])) fg bg m) := by
  intro hdraws
  have hzero : int (0 + ((0 + (a :: s).length : Nat) : Int) * font.BIOS_CHAR_W) = int 0 := by
    rw [Nat.zero_add, hwidth]
    rfl
  have hlast : draw_text font (some vp) 0 0 (some (a :: s ++ [c])) fg bg m =
      draw_char_at font (some vp) (int 0) 0 c fg bg (drawChars font vp 0 0 fg bg 0 (a :: s) m) := by
    rw [← hzero]
    exact drawChars_concat hc (a :: s) hs 0
  have hall : untilNul (a :: s ++ [c]) = a :: (s ++ [c]) := by
    refine untilNul_eq fun d hd => ?_
    rcases List.mem_append.mp hd with hd | hd
    · exact hs d hd
    · rwa [List.mem_singleton.mp hd]
  have htext : textPicture font 0 0 (a :: (s ++ [c])) fg bg (0, 0) =
      some (if font.bit a 0 0 then fg else bg) := by
    have hrow : 0 < font.BIOS_CHAR_H := by
      unfold VideoFont.BIOS_CHAR_H BIOS_FONT_SCALE
      omega
    simp [textPicture, hrow]
  have hglyph : glyphPicture (font.bit c) 0 0 font.VIDEO_FONT_WIDTH font.VIDEO_FONT_HEIGHT fg bg (0, 0) =
      some (if font.bit c 0 0 then fg else bg) := by
    have hpos := font.width_pos
    exact if_pos (by omega)
  have hwide : (0 : Int) + font.BIOS_CHAR_W ≤ 2 ^ 32 := by
    have hpos := char_w_pos font
    have hle : 1 * font.BIOS_CHAR_W ≤ ((a :: s).length : Int) * font.BIOS_CHAR_W :=
      Int.mul_le_mul_of_nonneg_right (by rw [List.length_cons]; omega) hpos.le
    omega
  have hcell := (draws_char (x := 0) (y := 0) hvp (by decide) hwide ⟨by decide, by decide⟩ c fg bg
    (drawChars font vp 0 0 fg bg 0 (a :: s) m)).cells (0, 0) 0 hon le_rfl (by decide : (0 : Int) < 4)
  have hfirst := hdraws.cells (0, 0) 0 hon le_rfl (by decide : (0 : Int) < 4)
  rw [hlast, hall, htext, hcell, hglyph, Option.elim_some, Option.elim_some] at hfirst
  exact colors_ne hbits hcolors hfirst.symm

end Kworker.Bios

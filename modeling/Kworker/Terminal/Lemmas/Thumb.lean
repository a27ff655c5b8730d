import Kworker.Terminal.Thumb
import Mathlib.Algebra.Order.Field.Basic
import Mathlib.Tactic.FieldSimp
import Mathlib.Tactic.Linarith
import Mathlib.Tactic.NormNum
import Mathlib.Tactic.Ring

/-!
# The scroll bar
-/

namespace Kworker.Terminal

variable {b : Bar} {d : ThumbDrag}

/-- There is something to scroll, and the track is high enough for the thumb to move in. -/
structure Bar.Scrollable (b : Bar) : Prop where
  clientHeight_pos : 0 < b.clientHeight
  clientHeight_lt : b.clientHeight < b.scrollHeight
  track_ge : 100 ≤ b.track

theorem Bar.Scrollable.scrollTo (h : b.Scrollable) (s : ℚ) : Bar.Scrollable { b with scrollTop := s } :=
  ⟨h.clientHeight_pos, h.clientHeight_lt, h.track_ge⟩

/-! ## The height of the thumb -/

theorem Bar.Scrollable.maxScroll_eq (h : b.Scrollable) : b.maxScroll = b.scrollHeight - b.clientHeight :=
  max_eq_right (sub_nonneg.mpr h.clientHeight_lt.le)

theorem Bar.Scrollable.maxScroll_pos (h : b.Scrollable) : 0 < b.maxScroll := by
  rw [h.maxScroll_eq]
  exact sub_pos.mpr h.clientHeight_lt

theorem Bar.Scrollable.range_ge (h : b.Scrollable) : 72 ≤ b.track - b.thumbH := by
  have hle : b.thumbH ≤ max 28 (b.track - 72 - 2) := min_le_right _ _
  have htrack := h.track_ge
  rcases le_max_iff.mp hle with hmin | hmax
  · linarith
  · linarith

theorem Bar.Scrollable.range_eq (h : b.Scrollable) : max 1 (b.track - b.thumbH) = b.track - b.thumbH :=
  max_eq_right (by linarith [h.range_ge])

/-- The height that is set is the one that is drawn when neither limit takes it below the minimum of
the style sheet. -/
theorem minHeight_le_thumbH_iff :
    minHeight ≤ b.thumbH ↔ 79 / 2 ≤ b.clientHeight / b.scrollHeight * b.track ∧ 114 ≤ b.track := by
  have hsmall : ¬(40 : ℚ) ≤ 28 := by norm_num
  have hround : 40 ≤ mathRound (b.clientHeight / b.scrollHeight * b.track) ↔
      79 / 2 ≤ b.clientHeight / b.scrollHeight * b.track := by
    have hfloor := Int.le_floor (z := 40) (a := b.clientHeight / b.scrollHeight * b.track + 1 / 2)
    rw [mathRound, show (40 : ℚ) = ((40 : ℤ) : ℚ) by norm_num, Int.cast_le, hfloor]
    constructor
    · intro hle
      push_cast at hle
      linarith
    · intro hle
      push_cast
      linarith
  have htrack : 40 ≤ b.track - 72 - 2 ↔ 114 ≤ b.track := by
    constructor
    · intro hle
      linarith
    · intro hle
      linarith
  rw [Bar.thumbH, minHeight, MIN_THUMB_PX, MIN_TRACK_DRAG_RANGE, le_min_iff, le_max_iff, le_max_iff, hround,
    htrack, or_iff_right hsmall, or_iff_right hsmall]

/-! ## Setting the thumb -/

theorem syncThumb_eq (h : b.Scrollable) : syncThumb b =
    { b with thumb := ⟨b.thumbH, b.scrollTop / b.maxScroll * (b.track - b.thumbH), false⟩ } := by
  have hpos : ¬(b.maxScroll ≤ 0 ∨ b.track ≤ 0) :=
    not_or.mpr ⟨not_le.mpr h.maxScroll_pos, not_le.mpr (by linarith [h.track_ge])⟩
  rw [syncThumb, if_neg hpos]
  simp only [h.range_eq]

theorem syncThumb_frame (b : Bar) : ∃ t, syncThumb b = { b with thumb := t } := by
  unfold syncThumb
  split_ifs with hidle
  · exact ⟨_, rfl⟩
  · exact ⟨_, rfl⟩

/-! ## Dragging it -/

theorem onMove_frame (b : Bar) (y : ℚ) : ∃ s t, onMove b y = { b with scrollTop := s, thumb := t } := by
  unfold onMove
  split
  · exact ⟨b.scrollTop, b.thumb, rfl⟩
  · split_ifs with hidle
    · exact ⟨b.scrollTop, b.thumb, rfl⟩
    · obtain ⟨t, ht⟩ := syncThumb_frame _
      exact ⟨_, t, ht⟩

/-- A move changes nothing that the next one looks at. -/
theorem moves_frame (b : Bar) (ys : List ℚ) :
    ∃ s t, ys.foldl onMove b = { b with scrollTop := s, thumb := t } := by
  induction ys generalizing b with
  | nil => exact ⟨b.scrollTop, b.thumb, rfl⟩
  | cons y ys ih =>
      obtain ⟨s, t, hmove⟩ := onMove_frame b y
      obtain ⟨s', t', hmoves⟩ := ih (onMove b y)
      refine ⟨s', t', ?_⟩
      rw [List.foldl_cons, hmoves, hmove]

theorem onMove_eq (h : b.Scrollable) (hd : b.drag = some d) (y : ℚ) : onMove b y =
    syncThumb { b with
      scrollTop := max 0 (min b.maxScroll (d.sScroll + (y - d.sy) / d.trackRange * b.maxScroll)) } := by
  unfold onMove
  split
  · next hnone => rw [hnone] at hd; cases hd
  · next d' hd' =>
      rw [hd', Option.some.injEq] at hd
      rw [if_neg (not_le.mpr h.maxScroll_pos), hd]

/-- Where a drag of `dy` takes the thumb, whatever the moves before the last one. -/
theorem dragThumb_eq (h : b.Scrollable) (hd : b.drag = none) (y : ℚ) (ys : List ℚ) (dy : ℚ) :
    dragThumb b y (ys ++ [y + dy]) =
      syncThumb { b with
        scrollTop := max 0 (min b.maxScroll
          (b.scrollTop + dy / max 1 (b.track - b.thumb.offsetHeight) * b.maxScroll)) } := by
  have hstart : onThumbStart b y = { b with
      drag := some ⟨y, b.scrollTop, max 1 (b.track - b.thumb.offsetHeight)⟩ } := by
    rw [onThumbStart, hd, if_neg (by simp), if_neg (not_le.mpr h.maxScroll_pos)]
  obtain ⟨s, t, hmoves⟩ := moves_frame (onThumbStart b y) ys
  rw [dragThumb, List.foldl_append, hmoves, List.foldl_cons, List.foldl_nil, hstart]
  have hlast : Bar.Scrollable { b with
      scrollTop := s
      thumb := t
      drag := some ⟨y, b.scrollTop, max 1 (b.track - b.thumb.offsetHeight)⟩ } :=
    ⟨h.clientHeight_pos, h.clientHeight_lt, h.track_ge⟩
  rw [onMove_eq hlast rfl, syncThumb_eq (hlast.scrollTo _), syncThumb_eq (h.scrollTo _), add_sub_cancel_left,
    onEnd, hd]
  rfl

/-! ## Thumbs that follow the pointer -/

theorem syncThumb_top (h : b.Scrollable) :
    (syncThumb b).thumb.top = b.scrollTop / b.maxScroll * (b.track - b.thumbH) := by
  rw [syncThumb_eq h]

theorem syncThumb_height (h : b.Scrollable) : (syncThumb b).thumb.offsetHeight = max b.thumbH minHeight := by
  rw [syncThumb_eq h]
  rfl

theorem fits_of_minHeight (h : b.Scrollable) (hthumb : minHeight ≤ b.thumbH) (hlow : 0 ≤ b.scrollTop)
    (hhigh : b.scrollTop ≤ b.maxScroll) : (syncThumb b).Fits := by
  have hrange : 0 < b.track - b.thumbH := by linarith [h.range_ge]
  have hpos := h.maxScroll_pos
  have htop := syncThumb_top h
  have hheight := syncThumb_height h
  rw [max_eq_left hthumb] at hheight
  have hzero : 0 ≤ b.scrollTop / b.maxScroll := div_nonneg hlow hpos.le
  have hone : b.scrollTop / b.maxScroll ≤ 1 := (div_le_one hpos).mpr hhigh
  have hend : b.scrollTop / b.maxScroll * (b.track - b.thumbH) ≤ b.track - b.thumbH :=
    mul_le_of_le_one_left hrange.le hone
  obtain ⟨t, hsync⟩ := syncThumb_frame b
  refine ⟨?_, ?_⟩
  · rw [htop, hheight, hsync]
    exact ⟨mul_nonneg hzero hrange.le, by linarith⟩
  · rw [htop, hheight, hsync]
    constructor
    · rw [mul_eq_zero, or_iff_left hrange.ne', div_eq_zero_iff, or_iff_left hpos.ne']
    · rw [← eq_sub_iff_add_eq, mul_eq_right₀ hrange.ne', div_eq_one_iff_eq hpos.ne']
      rfl

/-- From the thumb to the scroll position and back, both clamped to their ranges. -/
theorem scroll_back {s m range dy : ℚ} (hm : 0 < m) (hr : 0 < range) :
    max 0 (min m (s + dy / range * m)) / m * range = max 0 (min range (s / m * range + dy)) := by
  have hscale : 0 ≤ range / m := (div_pos hr hm).le
  have hmove : (s + dy / range * m) * (range / m) = s / m * range + dy := by field_simp
  have hend : m * (range / m) = range := by field_simp
  rw [div_mul_eq_mul_div, mul_div_assoc, max_mul_of_nonneg _ _ hscale, min_mul_of_nonneg _ _ hscale, hmove,
    hend, zero_mul]

/-- A drag from where the thumb was set. -/
theorem drag_synced (h : b.Scrollable) (hd : b.drag = none) (y : ℚ) (ys : List ℚ) (dy : ℚ) :
    dragThumb (syncThumb b) y (ys ++ [y + dy]) =
      syncThumb { b with
        scrollTop := max 0 (min b.maxScroll
          (b.scrollTop + dy / max 1 (b.track - (syncThumb b).thumb.offsetHeight) * b.maxScroll)) } := by
  obtain ⟨t, hsync⟩ := syncThumb_frame b
  have hscroll : Bar.Scrollable { b with thumb := t } := ⟨h.1, h.2, h.3⟩
  rw [hsync, dragThumb_eq hscroll hd, syncThumb_eq (hscroll.scrollTo _), syncThumb_eq (h.scrollTo _)]
  rfl

theorem follows_of_minHeight (h : b.Scrollable) (hd : b.drag = none) (hthumb : minHeight ≤ b.thumbH)
    (hlow : 0 ≤ b.scrollTop) (hhigh : b.scrollTop ≤ b.maxScroll) : (syncThumb b).Follows := by
  have hrange : 0 < b.track - b.thumbH := by linarith [h.range_ge]
  have hheight := syncThumb_height h
  rw [max_eq_left hthumb] at hheight
  refine ⟨fits_of_minHeight h hthumb hlow hhigh, ?_, ?_⟩
  · intro y ys dy
    rw [drag_synced h hd]
    exact fits_of_minHeight (h.scrollTo _) hthumb (le_max_left _ _)
      (max_le h.maxScroll_pos.le (min_le_left _ _))
  · intro y ys dy
    have htrack : (syncThumb b).track = b.track := by
      obtain ⟨t, hsync⟩ := syncThumb_frame b
      rw [hsync]
    rw [drag_synced h hd, syncThumb_top (h.scrollTo _), syncThumb_top h, htrack, hheight, h.range_eq]
    exact scroll_back h.maxScroll_pos hrange

/-- A drag over the whole track takes the thumb to its end, wherever it begins; if it is drawn higher than
it was set, it is then past the end. -/
theorem minHeight_of_follows (h : b.Scrollable) (hd : b.drag = none) (hlow : 0 ≤ b.scrollTop)
    (hfollows : (syncThumb b).Follows) : minHeight ≤ b.thumbH := by
  have hpos := h.maxScroll_pos
  have hdrawn : 0 < max 1 (b.track - (syncThumb b).thumb.offsetHeight) := lt_max_of_lt_left one_pos
  have hdrag := drag_synced h hd 0 [] (max 1 (b.track - (syncThumb b).thumb.offsetHeight))
  rw [div_self hdrawn.ne', one_mul, min_eq_left (le_add_of_nonneg_left hlow), max_eq_right hpos.le] at hdrag
  have hinside := (hfollows.fits_dragged 0 [] (max 1 (b.track - (syncThumb b).thumb.offsetHeight))).inside.2
  have htrack : (syncThumb { b with scrollTop := b.maxScroll }).track = b.track := by
    obtain ⟨t, hsync⟩ := syncThumb_frame { b with scrollTop := b.maxScroll }
    rw [hsync]
  rw [hdrag, syncThumb_top (h.scrollTo _), syncThumb_height (h.scrollTo _), htrack] at hinside
  have hend : b.maxScroll / b.maxScroll * (b.track - b.thumbH) + max b.thumbH minHeight ≤ b.track := hinside
  rw [div_self hpos.ne', one_mul] at hend
  have hle : minHeight ≤ max b.thumbH minHeight := le_max_right _ _
  linarith

end Kworker.Terminal

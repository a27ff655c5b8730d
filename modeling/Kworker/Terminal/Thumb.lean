import Mathlib.Algebra.Order.Floor.Ring
import Mathlib.Data.Rat.Floor

/-!
# The scroll bar of a tab

`wireCustomScrollbar`: where the thumb is drawn for a scroll position, and the scroll position for a
place the thumb is dragged to. Lengths are in pixels and exact; what the page measures of the viewport
and of the track does not change during a drag.
-/

namespace Kworker.Terminal

/-- `Math.round(q)` -/
def mathRound (q : ℚ) : ℚ := ⌊q + 1 / 2⌋

/-- The style of the thumb, and whether it has the class `wt-thumb-idle`. -/
structure Thumb where
  height : ℚ := 48
  top : ℚ := 0
  idle : Bool := false
  deriving DecidableEq, Repr

/-- `min-height` of `.wt-term-scroll-thumb` -/
def minHeight : ℚ := 40

/-- The height at which the thumb is drawn. -/
def Thumb.offsetHeight (t : Thumb) : ℚ := max t.height minHeight

/-- What `onThumbStart` keeps for the moves. -/
structure ThumbDrag where
  sy : ℚ
  sScroll : ℚ
  trackRange : ℚ
  deriving DecidableEq, Repr

/-- The viewport, `clientHeight` of the track, the thumb, and the drag while there is one. -/
structure Bar where
  scrollHeight : ℚ
  clientHeight : ℚ
  scrollTop : ℚ
  track : ℚ
  thumb : Thumb := {}
  drag : Option ThumbDrag := none
  deriving DecidableEq, Repr

def MIN_THUMB_PX : ℚ := 28

def MIN_TRACK_DRAG_RANGE : ℚ := 72

def Bar.maxScroll (b : Bar) : ℚ := max 0 (b.scrollHeight - b.clientHeight)

/-- `thumbH` in `syncThumb` -/
def Bar.thumbH (b : Bar) : ℚ :=
  let thumbH := mathRound (b.clientHeight / b.scrollHeight * b.track)
  let thumbH := max MIN_THUMB_PX thumbH
  let maxThumb := max MIN_THUMB_PX (b.track - MIN_TRACK_DRAG_RANGE - 2)
  min thumbH maxThumb

def syncThumb (b : Bar) : Bar :=
  if b.maxScroll ≤ 0 ∨ b.track ≤ 0 then
    { b with thumb := { height := min 48 (max MIN_THUMB_PX ⌊b.track * (35 / 100)⌋), top := 0, idle := true } }
  else
    let range := max 1 (b.track - b.thumbH)
    let top := b.scrollTop / b.maxScroll * range
    { b with thumb := { height := b.thumbH, top, idle := false } }

/-- The pointer goes down on the thumb at `y`; with nothing to scroll only the thumb is set again. -/
def onThumbStart (b : Bar) (y : ℚ) : Bar :=
  if b.drag.isSome then b
  else if b.maxScroll ≤ 0 then syncThumb b
  else
    { b with
      drag := some
        { sy := y
          sScroll := b.scrollTop
          trackRange := max 1 (b.track - b.thumb.offsetHeight) } }

def onMove (b : Bar) (y : ℚ) : Bar :=
  match b.drag with
  | none => b
  | some d =>
      if b.maxScroll ≤ 0 then b
      else
        let dy := y - d.sy
        let next := d.sScroll + dy / d.trackRange * b.maxScroll
        syncThumb { b with scrollTop := max 0 (min b.maxScroll next) }

def onEnd (b : Bar) : Bar := { b with drag := none }

/-- The thumb is taken at `y`, moved to the places `ys`, one after the other, and let go. -/
def dragThumb (b : Bar) (y : ℚ) (ys : List ℚ) : Bar := onEnd (ys.foldl onMove (onThumbStart b y))

/-- The thumb is drawn inside the track, and at an end of it just when there is no more to scroll there. -/
structure Bar.Fits (b : Bar) : Prop where
  inside : 0 ≤ b.thumb.top ∧ b.thumb.top + b.thumb.offsetHeight ≤ b.track
  ends : (b.thumb.top = 0 ↔ b.scrollTop = 0) ∧
    (b.thumb.top + b.thumb.offsetHeight = b.track ↔ b.scrollTop = b.maxScroll)

/-- Wherever the thumb is taken and however it is moved, it follows the pointer as far as the track
goes. -/
structure Bar.Follows (b : Bar) : Prop where
  fits : b.Fits
  fits_dragged : ∀ y ys dy, (dragThumb b y (ys ++ [y + dy])).Fits
  top_dragged : ∀ y ys dy, (dragThumb b y (ys ++ [y + dy])).thumb.top =
    max 0 (min (b.track - b.thumb.offsetHeight) (b.thumb.top + dy))

end Kworker.Terminal

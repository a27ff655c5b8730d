import Kworker.Lib.Machine

/-!
# Following the output

Output, the callbacks of xterm and the scroll events of the active tab, as far as they decide whether
its viewport is scrolled to the bottom.
-/

namespace Kworker.Terminal

open Kworker.Lib

/-- The active tab. `baseY` and `viewportY` are those of xterm's buffer, and `writes` are the values of
`follow` in the writes whose callbacks have not run. `reading` and `pulled` are not in the page: since the
user scrolled away from the bottom there was no other scrolling or typing, and since then output has
called `scheduleScrollToBottom`. -/
structure Scroll where
  baseY : Int
  viewportY : Int
  wtFollowOutput : Bool := false
  writePendingCount : Nat := 0
  writes : List Bool := []
  scrollBottomScheduled : Bool := false
  reading : Bool := false
  pulled : Bool := false
  deriving DecidableEq, Repr

/-- A line is taken to be 14 pixels high; the number of lines is rounded up. -/
def termViewportNearBottom (s : Scroll) (thresholdPx : Nat) : Bool :=
  s.baseY - s.viewportY ≤ max 1 ((thresholdPx + 13) / 14)

def scheduleScrollToBottom (s : Scroll) : Scroll :=
  if s.scrollBottomScheduled then s else { s with scrollBottomScheduled := true }

def termWriteChunk (scrollOn : Bool) (s : Scroll) : Scroll :=
  let s := if scrollOn && termViewportNearBottom s 64 then { s with wtFollowOutput := true } else s
  let s := { s with writePendingCount := s.writePendingCount + 1 }
  { s with writes := s.writes ++ [scrollOn && s.wtFollowOutput] }

/-- The callback of a write. -/
def writeCallback (follow : Bool) (s : Scroll) : Scroll :=
  let s := { s with writePendingCount := s.writePendingCount - 1 }
  if follow then scheduleScrollToBottom s else s

def syncThumbAndOutputFollow (scrollOn : Bool) (s : Scroll) : Scroll :=
  if !scrollOn then s
  else if s.writePendingCount > 0 || s.scrollBottomScheduled then s
  else if !termViewportNearBottom s 64 then { s with wtFollowOutput := false }
  else s

inductive ScrollAct where
  /-- output arrives -/
  | chunk
  /-- xterm takes output of the oldest write and moves the viewport -/
  | parsed (baseY viewportY : Int)
  /-- the callback of the oldest write -/
  | written
  /-- the animation frame of `scheduleScrollToBottom` -/
  | frame
  /-- the user moves the viewport -/
  | userScroll (viewportY : Int)
  /-- a scroll event that is not the user's -/
  | scrollEvent
  /-- the user types -/
  | typed
  deriving DecidableEq, Repr

/-- Not the user's: output comes in and is written, and what follows from it. -/
def ScrollAct.isOutput : ScrollAct → Bool
  | .chunk | .parsed _ _ | .written | .frame | .scrollEvent => true
  | .userScroll _ | .typed => false

def scrollStep (scrollOn : Bool) (s : Scroll) : ScrollAct → Option Scroll
  | .chunk => some (termWriteChunk scrollOn s)
  | .parsed baseY viewportY => if s.writes = [] then none else some { s with baseY, viewportY }
  | .written =>
      match s.writes with
      | [] => none
      | follow :: writes => some (writeCallback follow
          { s with writes, pulled := s.pulled || (follow && s.reading) })
  | .frame =>
      if s.scrollBottomScheduled then some { s with scrollBottomScheduled := false, viewportY := s.baseY }
      else none
  | .userScroll viewportY =>
      let s := { s with viewportY }
      some (syncThumbAndOutputFollow scrollOn { s with reading := !termViewportNearBottom s 64 })
  | .scrollEvent => some (syncThumbAndOutputFollow scrollOn s)
  | .typed =>
      -- with `scrollOnUserInput` xterm scrolls to the bottom
      some { s with reading := false, viewportY := if scrollOn then s.baseY else s.viewportY }

def scroll (scrollOn : Bool) : Machine Scroll ScrollAct := ⟨scrollStep scrollOn⟩

/-- The tab when nothing has been written. -/
def Scroll.opened (baseY viewportY : Int) (scheduled : Bool) : Scroll where
  baseY
  viewportY
  scrollBottomScheduled := scheduled

/-- The user scrolls away from the bottom when no scrolling to the bottom is scheduled and no unfinished
write follows, and while the user reads xterm does not move the viewport to the bottom. -/
def ScrollAct.Calm (scrollOn : Bool) (s : Scroll) : ScrollAct → Prop
  | .userScroll viewportY => scrollOn = true → termViewportNearBottom { s with viewportY } 64 = false →
      s.scrollBottomScheduled = false ∧ true ∉ s.writes
  | .parsed baseY viewportY => scrollOn = true → s.reading = true →
      termViewportNearBottom { s with baseY, viewportY } 64 = false
  | .chunk | .written | .frame | .scrollEvent | .typed => True

end Kworker.Terminal

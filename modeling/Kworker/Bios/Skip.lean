import Kworker.Bios.Schedule

/-!
# Skipping the countdown

Enter and Esc end the wait: one of these bytes arrives at some point of a countdown, and nothing else.
-/

namespace Kworker.Bios

open Kworker.Lib

/-- No check of the board key finds it pressed. -/
def Item.Unpressed : Item → Prop
  | .first _ => True
  | .pass p => p.board = false ∧ p.poll.board = false ∧ p.poll.look₀.board = false ∧
      p.poll.look₁.board = false ∧ p.poll.look₂.board = false

instance : DecidablePred Item.Unpressed
  | .first _ => isTrue trivial
  | .pass p => inferInstanceAs (Decidable (p.board = false ∧ _))

/-- Up to the end of the next turn of the loop. -/
def untilPass : List Item → List Item
  | [] => []
  | .first r :: items => .first r :: untilPass items
  | .pass p :: _ => [.pass p]

/-- The byte `c` becomes available on `S` in `i`, and no other byte arrives. -/
structure OneByte (S : Source) (c : UInt8) (env : Countdown) (delay_sec : Int) (pre : List Item) (i : Item)
    (post : List Item) : Prop where
  items : env.items delay_sec = pre ++ i :: post
  flush : env.flush = []
  byte : i.on S = [c]
  before : arrivals S pre = []
  after : arrivals S post = []
  other : arrivals S.other (env.items delay_sec) = []
  unpressed : ∀ j ∈ env.items delay_sec, j.Unpressed
  attached : S = .usb → env.Attached pre i ∧ ∀ j ∈ i :: untilPass post, j.usbkbd = true

/-- The wait returns `false`, and not later than in the turn after `i`. -/
structure SkipsNext (env : Countdown) (delay_sec : Int) (pre : List Item) (i : Item) (post : List Item) :
    Prop where
  skipped : (kh_bios_wait_f10 env delay_sec).1 = false
  next : (∃ j ∈ post, j.isPass = true) →
    ∃ l, (pre ++ i :: untilPass post).foldlM Item.step env.armed = .error (false, l)

/-- The byte arrives after the last look of the drain and before the first check of
`kh_bios_poll_key`. -/
def Item.BetweenReaders (S : Source) : Item → Prop
  | .first _ => False
  | .pass p => p.poll.look₀.tstc.on S ≠ []

end Kworker.Bios

import Kworker.Bios.Hotkey
import Kworker.Lib.Script

/-!
# Schedules of the countdown

A countdown as one list of its drains and turns, and what it means that a key press arrives in it.
-/

namespace Kworker.Bios

open Kworker.Lib

def Source.other : Source → Source
  | .uart => .usb
  | .usb => .uart

/-! ## The points of a countdown -/

inductive Item where
  | first (r : Round)
  | pass (p : Pass)

def Item.step (l : Line) : Item → Except (Bool × Line) Line
  | .first r => firstDrain r l
  | .pass p => waitPass l p

def Countdown.items (env : Countdown) (delay_sec : Int) : List Item :=
  (env.seconds delay_sec).flatMap fun r => .first r :: r.passes.map .pass

/-- The line on which the countdown begins. -/
def Countdown.armed (env : Countdown) : Line :=
  bios_serial_rx_arm env (bios_usb_keyboard_start env {})

def Item.usbkbd : Item → Bool
  | .first r => r.usbkbd
  | .pass p => p.usbkbd

/-- One of the checks of the board key that end the wait finds it pressed. -/
def Item.boardSeen : Item → Bool
  | .first _ => false
  | .pass p => p.board || p.poll.board

/-! ## What arrives -/

def Line.queue (l : Line) : Source → List UInt8
  | .uart => l.uart
  | .usb => l.usb

def KeyLook.on (k : KeyLook) (S : Source) : List UInt8 := k.tstc.on S ++ k.getc.on S

def PollEnv.on (e : PollEnv) (S : Source) : List UInt8 :=
  e.look₀.on S ++ (e.look₁.on S ++ e.look₂.on S)

/-- What arrives up to the last look of the drain. -/
def Item.drained (i : Item) (S : Source) : List UInt8 :=
  match i with
  | .first r => r.drain.on S
  | .pass p => p.drain.on S

/-- What arrives after the drain, during `kh_bios_poll_key`. -/
def Item.polled (i : Item) (S : Source) : List UInt8 :=
  match i with
  | .first _ => []
  | .pass p => p.poll.on S

def Item.on (i : Item) (S : Source) : List UInt8 := i.drained S ++ i.polled S

def arrivals (S : Source) (items : List Item) : List UInt8 := items.flatMap (·.on S)

def Item.isPass : Item → Bool
  | .first _ => false
  | .pass _ => true

/-- The keyboard is attached when the drain of `i` begins: it has been found before the countdown, in an earlier
second or turn, or by the turn `i` itself, which looks for it before it drains. -/
def Countdown.Attached (env : Countdown) (pre : List Item) (i : Item) : Prop :=
  env.usb_init = 0 ∧ (∃ n < 120, env.usbTries n = true) ∨ (∃ j ∈ pre, j.usbkbd = true) ∨ i.isPass = true

/-- The five bytes of one press of F10 arrive on `S`, the last one before the final drain, and nothing
else arrives. A USB keyboard is attached when the first of them arrives, and stays there. -/
structure OnePress (S : Source) (env : Countdown) (delay_sec : Int) : Prop where
  flush : env.flush = []
  press : arrivals S (env.items delay_sec) = F10_SEQ
  other : arrivals S.other (env.items delay_sec) = []
  final : ∀ i, (env.items delay_sec).getLast? = some i → i.polled S = []
  attached : S = .usb → ∀ pre i post, env.items delay_sec = pre ++ i :: post → arrivals S pre = [] →
    i.on S ≠ [] → env.Attached pre i ∧ ∀ j ∈ i :: post, j.usbkbd = true

/-! ## What goes wrong -/

/-- After `before` has arrived, the drain finds nothing and `kh_bios_poll_key` the first byte. -/
def Item.PollTakesEsc (S : Source) (before : List UInt8) : Item → Prop
  | .first _ => False
  | .pass p => before ++ p.drain.on S = [] ∧
      (p.poll.look₀.tstc.on S ≠ [] ∨ p.poll.look₀.board = true ∧ p.poll.look₀.getc.on S ≠ [])

/-- When the press has arrived in part and been read, `kh_bios_poll_key` finds the board key pressed and
no byte: it feeds a 0 to the matcher. -/
def Item.PollFeedsZero (S : Source) (before : List UInt8) : Item → Prop
  | .first _ => False
  | .pass p => before ++ p.drain.on S ≠ [] ∧ before ++ p.drain.on S ≠ F10_SEQ ∧
      p.poll.look₀.board = true ∧ p.poll.look₀.on S = []

/-- After `before`, no turn of the loop takes the first byte, or the key is seen on the board not
later. -/
def EscLeftToDrain (S : Source) (before : List UInt8) (items : List Item) : Prop :=
  Everywhere (fun pre i => i.PollTakesEsc S (before ++ arrivals S pre) →
    ∃ j ∈ pre ++ [i], j.boardSeen = true) items

/-- After `before`, no turn of the loop feeds a 0 to the matcher, or the key is seen on the board at
some time. -/
def NoZeroFed (S : Source) (before : List UInt8) (items : List Item) : Prop :=
  Everywhere (fun pre i => ¬ i.PollFeedsZero S (before ++ arrivals S pre)) items ∨
    ∃ j ∈ items, j.boardSeen = true

end Kworker.Bios

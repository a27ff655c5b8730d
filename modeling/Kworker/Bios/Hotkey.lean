import Mathlib.Data.List.Infix

/-!
# Keys and the countdown of the BIOS

`core/kh_bios_hotkey.c`: the two byte sources, the matcher of F10, the reading of one key, and the
countdown before the boot. A source is the queue of the bytes that have arrived and have not been
read; the environment says which bytes arrive at which point of the program.
-/

namespace Kworker.Bios

/-! ## The F10 matcher -/

/-- `"\x1b[21~"` -/
def F10_SEQ : List UInt8 := [0x1b, 0x5b, 0x32, 0x31, 0x7e]

/-- `f10_match` afterwards, and the returned value. -/
def esc_state_feed (f10_match : Nat) (c : UInt8) : Nat × Bool :=
  if F10_SEQ[f10_match]? = some c then
    if f10_match + 1 ≥ F10_SEQ.length then (0, true) else (f10_match + 1, false)
  else (if c = 0x1b then 1 else 0, false)

/-- `f10_match` afterwards. -/
def esc_state_reset (_f10_match : Nat) : Nat := 0

/-- The bytes of `s` one by one: `f10_match` afterwards, and what the calls returned. -/
def esc_state_feeds (f10_match : Nat) : List UInt8 → Nat × List Bool
  | [] => (f10_match, [])
  | c :: s =>
      let fed := esc_state_feed f10_match c
      let rest := esc_state_feeds fed.1 s
      (rest.1, fed.2 :: rest.2)

/-! ## The sources -/

inductive Source where
  | uart
  | usb
  deriving DecidableEq, Repr

structure Arrivals where
  uart : List UInt8 := []
  usb : List UInt8 := []
  deriving DecidableEq, Repr

def Arrivals.on (a : Arrivals) : Source → List UInt8
  | .uart => a.uart
  | .usb => a.usb

/-- The bytes that wait on the sources, and the static variables. -/
structure Line where
  uart : List UInt8 := []
  usb : List UInt8 := []
  f10_match : Nat := 0
  usb_kbd_ready : Bool := false
  deriving DecidableEq, Repr

def Line.arrive (l : Line) (a : Arrivals) : Line :=
  { l with uart := l.uart ++ a.uart, usb := l.usb ++ a.usb }

/-- `usbkbd` says whether `stdio_get_by_name("usbkbd")` finds the keyboard. -/
def bios_usb_kbd_attach (usbkbd : Bool) (l : Line) : Line :=
  { l with usb_kbd_ready := l.usb_kbd_ready || usbkbd }

def usbReadable (usbkbd : Bool) (l : Line) : Bool := l.usb_kbd_ready && usbkbd && l.usb ≠ []

/-! ## The drain -/

/-- One byte of the drain: `f10_match`, and whether the setup is to be entered. -/
def drainByte (s : Nat × Bool) (c : UInt8) : Nat × Bool :=
  let (f10_match, hit) := esc_state_feed s.1 c
  (f10_match, s.2 || c = 0x62 || c = 0x42 || hit)

def drainBytes (bs : List UInt8) (f10_match : Nat) : Nat × Bool := bs.foldl drainByte (f10_match, false)

def bios_drain_enter_keys (usbkbd : Bool) (l : Line) : Line × Bool :=
  let (f10_match, enter) := drainBytes l.uart l.f10_match
  let l := { l with uart := [], f10_match }
  if usbReadable usbkbd l then
    let (f10_match, enter') := drainBytes l.usb l.f10_match
    ({ l with usb := [], f10_match }, enter || enter')
  else (l, enter)

/-! ## One key -/

inductive Key where
  | none
  | up
  | down
  | left
  | right
  | enter
  | esc
  | f10
  deriving DecidableEq, Repr

def bios_key_tstc (usbkbd board : Bool) (l : Line) : Bool :=
  board || l.uart ≠ [] || usbReadable usbkbd l

def bios_key_getc (usbkbd : Bool) (l : Line) : Line × UInt8 :=
  if usbReadable usbkbd l then ({ l with usb := l.usb.tail }, l.usb.headD 0)
  else ({ l with uart := l.uart.tail }, l.uart.headD 0)

/-- What happens around one call of `bios_key_tstc` and the `bios_key_getc` after it: whether the board
key is pressed, and what arrives before the sources are looked at. -/
structure KeyLook where
  board : Bool := false
  tstc : Arrivals := {}
  getc : Arrivals := {}
  deriving DecidableEq, Repr

/-- `if (!bios_key_tstc()) …; c = bios_key_getc();`. Without a key what comes later still arrives. -/
def keyLook (usbkbd : Bool) (k : KeyLook) (l : Line) : Line × Option UInt8 :=
  let l := l.arrive k.tstc
  if bios_key_tstc usbkbd k.board l then
    let (l, c) := bios_key_getc usbkbd (l.arrive k.getc)
    (l, some c)
  else (l.arrive k.getc, none)

/-- What arrives around a look that is not made. -/
def Line.skip (l : Line) (k : KeyLook) : Line := (l.arrive k.tstc).arrive k.getc

structure PollEnv where
  board : Bool := false
  look₀ : KeyLook := {}
  look₁ : KeyLook := {}
  look₂ : KeyLook := {}
  deriving DecidableEq, Repr

def pollBracket (usbkbd : Bool) (e : PollEnv) (l : Line) : Line × Key :=
  match keyLook usbkbd e.look₂ l with
  | (l, none) => (l, .esc)
  | (l, some c) =>
      if c = 0x41 then (l, .up)
      else if c = 0x42 then (l, .down)
      else if c = 0x43 then (l, .right)
      else if c = 0x44 then (l, .left)
      else (l, .esc)

def pollEscape (usbkbd : Bool) (e : PollEnv) (l : Line) : Line × Key :=
  match keyLook usbkbd e.look₁ l with
  | (l, none) => (l.skip e.look₂, .esc)
  | (l, some c) => if c = 0x5b then pollBracket usbkbd e l else (l.skip e.look₂, .esc)

def kh_bios_poll_key (usbkbd : Bool) (e : PollEnv) (l : Line) : Line × Key :=
  if e.board then (((l.skip e.look₀).skip e.look₁).skip e.look₂, .f10)
  else
    match keyLook usbkbd e.look₀ l with
    | (l, none) => ((l.skip e.look₁).skip e.look₂, .none)
    | (l, some c) =>
        let (f10_match, hit) := esc_state_feed l.f10_match c
        let l := { l with f10_match }
        if hit then ((l.skip e.look₁).skip e.look₂, .f10)
        else if c = 0x1b then pollEscape usbkbd e l
        else
          ((l.skip e.look₁).skip e.look₂,
            if c = 0x0d ∨ c = 0x0a then .enter else if c = 0x62 ∨ c = 0x42 then .f10 else .none)

/-! ## Flushing -/

/-- The loop of `kh_bios_flush_input`: the lines on which its turns begin and the one on which it ends,
`none` if it goes on after `fuel` turns. `board n` says whether the check `n` of the board key finds it
pressed. -/
def flushTurns (usbkbd : Bool) : Nat → (Nat → Bool) → Line → Option (List Line × Line)
  | 0, _, _ => none
  | fuel + 1, board, l =>
      if bios_key_tstc usbkbd (board 0) l then
        (flushTurns usbkbd fuel (fun n => board (n + 1)) (bios_key_getc usbkbd l).1).map
          fun (turns, last) => (l :: turns, last)
      else some ([], l)

def kh_bios_flush_input (usbkbd : Bool) (board : Nat → Bool) (fuel : Nat) (l : Line) :
    Option (List Line × Line) := flushTurns usbkbd fuel board { l with f10_match := 0 }

/-- The bytes that can be read. -/
def Line.pending (usbkbd : Bool) (l : Line) : Nat :=
  l.uart.length + if usbReadable usbkbd l then l.usb.length else 0

/-- A flush of `n` bytes in as many turns, each of which reads one. -/
structure Flushed (usbkbd : Bool) (n : Nat) (turns : List Line) (last : Line) : Prop where
  count : turns.length = n
  emptied : last.pending usbkbd = 0
  reads : ∀ t ∈ turns, (bios_key_getc usbkbd t).1.pending usbkbd + 1 = t.pending usbkbd

/-- The loop ends when all pending bytes have been read, and each of its turns reads one. -/
def FlushesPending (usbkbd : Bool) (board : Nat → Bool) (l : Line) : Prop :=
  ∃ fuel turns last, kh_bios_flush_input usbkbd board fuel l = some (turns, last) ∧
    Flushed usbkbd (l.pending usbkbd) turns last

/-! ## The countdown -/

/-- What happens during one turn of the loop over `get_timer(start) < 1000`. A drain reads until it
finds nothing, so `drain` is what arrives up to its last look. -/
structure Pass where
  usbkbd : Bool := false
  board : Bool := false
  drain : Arrivals := {}
  poll : PollEnv := {}
  deriving DecidableEq, Repr

structure Round where
  usbkbd : Bool := false
  drain : Arrivals := {}
  passes : List Pass := []
  deriving DecidableEq, Repr

structure Countdown where
  usb_init : Int := 0
  /-- whether the keyboard is found at the tries of `bios_usb_keyboard_start` -/
  usbTries : Nat → Bool := fun _ => false
  /-- what has arrived on the UART when it is flushed -/
  flush : List UInt8 := []
  /-- one for each second of the countdown -/
  rounds : Nat → Round

def bios_usb_keyboard_start (env : Countdown) (l : Line) : Line :=
  if env.usb_init ≠ 0 then l
  else (List.range 120).foldl (fun l i => bios_usb_kbd_attach (env.usbTries i) l) l

/-- At most 64 bytes are thrown away. -/
def bios_serial_rx_arm (env : Countdown) (l : Line) : Line :=
  { l with uart := (l.uart ++ env.flush).drop 64 }

/-- The first drain of a second. An early return is an error with the returned value. -/
def firstDrain (r : Round) (l : Line) : Except (Bool × Line) Line :=
  let (l, enter) := bios_drain_enter_keys r.usbkbd (l.arrive r.drain)
  if enter then .error (true, l) else .ok (bios_usb_kbd_attach r.usbkbd l)

def waitPass (l : Line) (p : Pass) : Except (Bool × Line) Line :=
  let l := bios_usb_kbd_attach p.usbkbd l
  if p.board then .error (true, l)
  else
    let (l, enter) := bios_drain_enter_keys p.usbkbd (l.arrive p.drain)
    if enter then .error (true, l)
    else
      match kh_bios_poll_key p.usbkbd p.poll l with
      | (l, .f10) => .error (true, l)
      | (l, .enter) | (l, .esc) => .error (false, l)
      | (l, _) => .ok l

def waitRound (l : Line) (r : Round) : Except (Bool × Line) Line := do
  let l ← firstDrain r l
  r.passes.foldlM waitPass l

def Countdown.seconds (env : Countdown) (delay_sec : Int) : List Round :=
  (List.range (delay_sec + 1).toNat).map env.rounds

def expire : Except (Bool × Line) Line → Bool × Line
  | .error r => r
  | .ok l => (false, l)

def kh_bios_wait_f10 (env : Countdown) (delay_sec : Int) : Bool × Line :=
  let l := bios_serial_rx_arm env (bios_usb_keyboard_start env {})
  expire ((env.seconds delay_sec).foldlM waitRound l)

end Kworker.Bios

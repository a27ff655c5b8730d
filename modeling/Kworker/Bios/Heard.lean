import Kworker.Bios.Schedule

/-!
# What a countdown reads

The bytes that the countdown takes from the sources, in the order in which it takes them, and what they
mean on the source they come from.
-/

namespace Kworker.Bios

open Kworker.Lib

/-! ## Readings -/

inductive Reading where
  /-- A byte is read; `fed` says whether it is tested for b, B and F10. -/
  | byte (fed : Bool) (S : Source) (c : UInt8)
  /-- `bios_key_getc` finds no byte and returns 0. -/
  | zero (fed : Bool)
  /-- The board key is found pressed. -/
  | board
  deriving DecidableEq, Repr

/-- The readings of the drain. -/
def drainReadings (usbkbd : Bool) (l : Line) : List Reading :=
  l.uart.map (.byte true .uart) ++ if usbReadable usbkbd l then l.usb.map (.byte true .usb) else []

/-- The source on which `bios_key_getc` finds a byte. -/
def getcSource (usbkbd : Bool) (l : Line) : Option Source :=
  if usbReadable usbkbd l then some .usb else if l.uart ≠ [] then some .uart else none

def getcReading (fed usbkbd : Bool) (l : Line) : Reading :=
  match getcSource usbkbd l with
  | some S => .byte fed S (bios_key_getc usbkbd l).2
  | none => .zero fed

def lookReadings (fed usbkbd : Bool) (k : KeyLook) (l : Line) : List Reading :=
  let l := l.arrive k.tstc
  (if k.board then [.board] else []) ++
    if bios_key_tstc usbkbd k.board l then [getcReading fed usbkbd (l.arrive k.getc)] else []

/-- After an `ESC`. -/
def escapeReadings (usbkbd : Bool) (e : PollEnv) (l : Line) : List Reading :=
  lookReadings false usbkbd e.look₁ l ++
    match keyLook usbkbd e.look₁ l with
    | (l, some c) => if c = 0x5b then lookReadings false usbkbd e.look₂ l else []
    | (_, none) => []

def pollReadings (usbkbd : Bool) (e : PollEnv) (l : Line) : List Reading :=
  if e.board then [.board]
  else
    lookReadings true usbkbd e.look₀ l ++
      match keyLook usbkbd e.look₀ l with
      | (l, some c) =>
          if c = 0x1b then escapeReadings usbkbd e { l with f10_match := (esc_state_feed l.f10_match c).1 }
          else []
      | (_, none) => []

def Item.readings (l : Line) : Item → List Reading
  | .first r => drainReadings r.usbkbd (l.arrive r.drain)
  | .pass p =>
      let l := bios_usb_kbd_attach p.usbkbd l
      if p.board then [.board]
      else
        drainReadings p.usbkbd (l.arrive p.drain) ++
          let (l, enter) := bios_drain_enter_keys p.usbkbd (l.arrive p.drain)
          if enter then [] else pollReadings p.usbkbd p.poll l

/-- The readings up to the end of the run. -/
def readings (l : Line) : List Item → List Reading
  | [] => []
  | i :: items =>
      i.readings l ++
        match i.step l with
        | .ok l => readings l items
        | .error _ => []

/-! ## What has been heard -/

/-- The bytes that have come from each source, and what the tests have made of them. -/
structure Heard where
  uart : List UInt8 := []
  usb : List UInt8 := []
  f10_match : Nat := 0
  enter : Bool := false
  deriving DecidableEq, Repr

def Heard.on (h : Heard) : Source → List UInt8
  | .uart => h.uart
  | .usb => h.usb

def Heard.take (h : Heard) (c : UInt8) : Source → Heard
  | .uart => { h with uart := h.uart ++ [c] }
  | .usb => { h with usb := h.usb ++ [c] }

def Heard.test (h : Heard) (fed : Bool) (c : UInt8) : Heard :=
  if fed then
    let (f10_match, enter) := drainByte (h.f10_match, h.enter) c
    { h with f10_match, enter }
  else h

def Heard.hear (h : Heard) : Reading → Heard
  | .byte fed S c => (h.test fed c).take c S
  | .zero fed => h.test fed 0
  | .board => h

def Heard.after (h : Heard) (rs : List Reading) : Heard := rs.foldl Heard.hear h

/-! ## Escape sequences -/

/-- Within the sequences that keys send: `ESC [` with parameters, and `ESC O`. -/
inductive Scan where
  | ground
  | esc
  | csi
  | ss3
  deriving DecidableEq, Repr

def Scan.next (s : Scan) (c : UInt8) : Scan :=
  if c = 0x1b then .esc
  else
    match s with
    | .esc => if c = 0x5b then .csi else if c = 0x4f then .ss3 else .ground
    | .csi => if 0x20 ≤ c ∧ c ≤ 0x3f then .csi else .ground
    | .ground | .ss3 => .ground

/-- After the bytes `before`, `c` is the final byte of an escape sequence. -/
def endsEscape (before : List UInt8) (c : UInt8) : Bool :=
  match before.foldl Scan.next .ground with
  | .csi | .ss3 => 0x40 ≤ c && c ≤ 0x7e
  | .ground | .esc => false

/-! ## Asking for the setup -/

/-- The reading asks for the setup: the board key, a `b` or `B` that stands alone, or the last byte of F10
on one source. -/
def Heard.Asks (h : Heard) : Reading → Prop
  | .byte _ S c => (c = 0x62 ∨ c = 0x42) ∧ endsEscape (h.on S) c = false ∨ F10_SEQ <:+ h.on S ++ [c]
  | .zero _ => False
  | .board => True

instance (h : Heard) : DecidablePred h.Asks
  | .byte _ S c => inferInstanceAs (Decidable (_ ∨ F10_SEQ <:+ h.on S ++ [c]))
  | .zero _ => isFalse id
  | .board => isTrue trivial

/-- A byte that is tested passes the test and does not ask for the setup: a `b` or `B` that ends an escape
sequence, or the last byte of an F10 whose bytes do not stand together on one source. -/
def Heard.Mistakes (h : Heard) : Reading → Prop
  | .byte true S c => (c = 0x62 ∨ c = 0x42) ∧ endsEscape (h.on S) c = true ∨
      (esc_state_feed h.f10_match c).2 = true ∧ ¬ F10_SEQ <:+ h.on S ++ [c]
  | .byte false _ _ | .zero _ | .board => False

def Countdown.readings (env : Countdown) (delay_sec : Int) : List Reading :=
  Bios.readings env.armed (env.items delay_sec)

/-- What has been heard after some readings. `bios_serial_rx_arm` has thrown away the first bytes. -/
def Countdown.heard (env : Countdown) (rs : List Reading) : Heard :=
  Heard.after { uart := env.flush.take 64 } rs

/-- At some point of the countdown the setup was asked for. -/
def Countdown.Asked (env : Countdown) (delay_sec : Int) : Prop :=
  ∃ pre r post, env.readings delay_sec = pre ++ r :: post ∧ (env.heard pre).Asks r

end Kworker.Bios

import Kworker.Bios.Hotkey

/-!
# Lists of keys and their bytes
-/

namespace Kworker.Bios

/-- A key that is pressed, with the choices its encoding leaves. -/
inductive Press where
  | up
  | down
  | left
  | right
  | enter (lf : Bool)
  | f10
  | b (upper : Bool)
  deriving DecidableEq, Repr

def Press.bytes : Press → List UInt8
  | .up => [0x1b, 0x5b, 0x41]
  | .down => [0x1b, 0x5b, 0x42]
  | .left => [0x1b, 0x5b, 0x44]
  | .right => [0x1b, 0x5b, 0x43]
  | .enter lf => [if lf then 0x0a else 0x0d]
  | .f10 => F10_SEQ
  | .b upper => [if upper then 0x42 else 0x62]

def Press.key : Press → Key
  | .up => .up
  | .down => .down
  | .left => .left
  | .right => .right
  | .enter _ => .enter
  | .f10 => .f10
  | .b _ => .f10

def encode (ps : List Press) (esc : Bool) : List UInt8 :=
  ps.flatMap Press.bytes ++ if esc then [0x1b] else []

def keys (ps : List Press) (esc : Bool) : List Key := ps.map Press.key ++ if esc then [.esc] else []

/-- `kh_bios_poll_key` again and again while there is input, at most `fuel` times. -/
def pollAll (usbkbd : Bool) : Nat → Line → Line × List Key
  | 0, l => (l, [])
  | fuel + 1, l =>
      if bios_key_tstc usbkbd false l then
        let (l, key) := kh_bios_poll_key usbkbd {} l
        let (l, keys) := pollAll usbkbd fuel l
        (l, key :: keys)
      else (l, [])

end Kworker.Bios

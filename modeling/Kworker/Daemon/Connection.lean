import Kworker.Daemon.Relay

/-!
# The daemon's connection process

What the process does with the connection before the relay loop: a single `read` of a
`struct winsize`, whose result becomes the window size of the PTY.
-/

namespace Kworker.Daemon

open Kworker.Posix

structure Winsize where
  ws_row : UInt16
  ws_col : UInt16
  ws_xpixel : UInt16
  ws_ypixel : UInt16
  deriving DecidableEq, Repr

/-- `sizeof(struct winsize)` -/
def winsizeBytes : Nat := 8

def Winsize.field (bs : List UInt8) (i : Nat) : UInt16 :=
  (bs[2 * i]?.getD 0).toUInt16 ||| ((bs[2 * i + 1]?.getD 0).toUInt16 <<< 8)

/-- The layout in memory, little endian. -/
def Winsize.ofBytes (bs : List UInt8) : Winsize where
  ws_row := Winsize.field bs 0
  ws_col := Winsize.field bs 1
  ws_xpixel := Winsize.field bs 2
  ws_ypixel := Winsize.field bs 3

/-- `ws` after the read of `got`, `stack` being what was in its place before. -/
def readWinsize (stack got : List UInt8) : Winsize :=
  let ws := Winsize.ofBytes (got ++ stack.drop got.length)
  if got.length ≠ winsizeBytes then { ws with ws_row := 24, ws_col := 80 } else ws

/-- `header` is what the read of the window size has taken, `none` before it has returned. -/
structure Conn where
  header : Option (List UInt8) := none
  ws : Option Winsize := none
  relay : Relay := {}

def Conn.readHeader (c : Conn) (stack got : List UInt8) : Conn :=
  { c with header := some got, ws := some (readWinsize stack got) }

def Conn.relayPass (c : Conn) (io : PassIo) : Conn := { c with relay := pass c.relay io }

end Kworker.Daemon

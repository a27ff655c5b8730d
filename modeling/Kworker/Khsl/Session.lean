import Kworker.Daemon.Connection
import Kworker.Khsl.Relay
import Kworker.Lib.Channel

/-!
# An interactive session of khsl

The client of `khsl/main.c`, its socket and the connection process of the daemon as one machine: the
client sends the size of its window, and then both loops relay, in any order. Standard input and the PTY
are where bytes come from, the PTY and standard output where they go.
-/

namespace Kworker.Khsl

open Kworker.Posix Kworker.Lib Kworker.Daemon

/-! ## The size of the window -/

def littleEndian (w : UInt16) : List UInt8 := [w.toUInt8, (w >>> 8).toUInt8]

/-- `&ws`, `sizeof(ws)` -/
def winsizeToBytes (ws : Winsize) : List UInt8 :=
  littleEndian ws.ws_row ++ littleEndian ws.ws_col ++ littleEndian ws.ws_xpixel ++ littleEndian ws.ws_ypixel

/-- `ws` of the client, `tty` being what `TIOCGWINSZ` sets: a failing call leaves the pixels as they were
in `own`. -/
def clientWinsize (own : Winsize) (tty : Option Winsize) : Winsize :=
  tty.getD { own with ws_row := 24, ws_col := 80 }

/-! ## The machine -/

/-- `up` leads from the client to the daemon, `down` back. -/
structure Session where
  client : Relay := {}
  up : Channel UInt8
  down : Channel UInt8 := Channel.empty
  conn : Conn := {}

/-- The client has written the size to the new socket, which takes it at once. -/
def Session.start (ws : Winsize) : Session := { up := Channel.empty.send (winsizeToBytes ws) }

inductive SessionAct where
  /-- a pass of the loop of the client -/
  | client (io : PassIo)
  /-- the read of the window size returns `n` bytes -/
  | header (n : Nat)
  /-- a pass of the loop of the daemon -/
  | daemon (io : PassIo)

/-- What has been read and passed on from `l` to `l'`. -/
def newlyRead (l l' : Leg) : List UInt8 := l'.got.drop l.got.length

def newlyAccepted (l l' : Leg) : List UInt8 := l'.accepted.drop l.accepted.length

def Session.clientPassed (s : Session) (client : Relay) : Session where
  client
  up := s.up.send (newlyAccepted s.client.up client.up)
  down := s.down.take (newlyRead s.client.down client.down).length
  conn := s.conn

def Session.daemonPassed (s : Session) (conn : Conn) : Session where
  client := s.client
  up := s.up.take (newlyRead s.conn.relay.up conn.relay.up).length
  down := s.down.send (newlyAccepted s.conn.relay.down conn.relay.down)
  conn

/-- `stack` is what the connection process has in the place of `ws` before the read. -/
def sessionStep (stack : List UInt8) (s : Session) : SessionAct → Option Session
  | .client io =>
      let client := pass s.client io
      if s.client.ctl.running = true ∧ io.allowed bufferSize = true ∧
          newlyRead s.client.down client.down <+: s.down.inFlight then
        some (s.clientPassed client)
      else none
  | .header n =>
      if s.conn.header = none ∧ 0 < n ∧ n ≤ min winsizeBytes s.up.inFlight.length then
        some { s with
          up := s.up.take n
          conn := s.conn.readHeader stack (s.up.inFlight.take n) }
      else none
  | .daemon io =>
      let conn := s.conn.relayPass io
      if s.conn.header ≠ none ∧ s.conn.relay.ctl.running = true ∧ io.allowed bufferSize = true ∧
          newlyRead s.conn.relay.up conn.relay.up <+: s.up.inFlight then
        some (s.daemonPassed conn)
      else none

def session (stack : List UInt8) : Machine Session SessionAct := ⟨sessionStep stack⟩

/-! ## What should hold of it -/

/-- What the client has sent of its standard input and the daemon has not read yet. -/
def Session.unread (s : Session) : List UInt8 :=
  match s.conn.header with
  | none => s.up.inFlight.drop winsizeBytes
  | some _ => s.up.inFlight

/-- The PTY has the size of the window, and what is typed reaches the PTY and what the PTY shows reaches
standard output, without a byte lost, doubled or out of order. -/
structure Session.Exact (ws : Winsize) (s : Session) : Prop where
  size : ∀ ws', s.conn.ws = some ws' → ws' = ws
  up : s.client.up.got = s.conn.relay.up.accepted ++ s.unread
  down : s.conn.relay.down.got = s.client.down.accepted ++ s.down.inFlight

/-- Nothing comes out that was not put in, in this order. -/
structure Session.InOrder (ws : Winsize) (s : Session) : Prop where
  up : s.conn.relay.up.accepted.Sublist (winsizeToBytes ws ++ s.client.up.got)
  down : s.client.down.accepted.Sublist s.conn.relay.down.got

/-- The write takes the whole buffer that was read. -/
def TakesAll (rd : ReadResult) (wr : WriteResult) : Prop :=
  ∀ bs h, rd = .data bs h → wr = .wrote bs.length

/-- The size is read as a whole, and every write that is made takes its whole buffer. The client does not
come to its second half when it has nothing to read in the first. -/
def SessionAct.Whole : SessionAct → Prop
  | .client io =>
      match io.poll with
      | .ready r₀ r₁ =>
          (r₀.POLLIN = true → TakesAll io.read₀ io.write₀) ∧
          (r₁.POLLIN = true → (r₀.POLLIN = true → io.read₀.bytes ≠ []) → TakesAll io.read₁ io.write₁)
      | .error _ => True
  | .header n => n = winsizeBytes
  | .daemon io => io.WritesComplete

end Kworker.Khsl

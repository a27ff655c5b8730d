import Kworker.Daemon.Connection
import Kworker.Terminal.Napi

/-!
# A daemon session from the terminal to the shell's PTY

The terminal process, the stream socket and the daemon's connection process as one machine. The
socket hands out its bytes in order, in pieces of any size.
-/

namespace Kworker.Terminal

open Kworker.Posix Kworker.Lib Kworker.Daemon

/-- `passed` collects the strings that `WritePty` has been given for the session. -/
structure Link where
  globals : Globals
  id : Int
  fd : Int
  passed : List UInt8 := []
  inSocket : List UInt8 := []
  conn : Conn := {}

inductive LinkAct where
  | writePty (data : List UInt8)
  /-- the read of the window size returns `n` bytes -/
  | header (n : Nat)
  | pass (io : PassIo)

def clientBytes (io : PassIo) : List UInt8 :=
  match io.poll with
  | .ready r₀ _ => if r₀.POLLIN then io.read₀.bytes else []
  | .error _ => []

/-- `stack` is what the connection process has in the place of `ws` before the read. -/
def linkStep (stack : List UInt8) (l : Link) : LinkAct → Option Link
  | .writePty data => some { l with
      passed := l.passed ++ data
      inSocket := l.inSocket ++ streamed l.fd (writePty l.globals data l.id) }
  | .header n =>
      -- a blocking read returns as soon as there is a byte, with at most what was asked for
      if l.conn.header = none ∧ 0 < n ∧ n ≤ min winsizeBytes l.inSocket.length then
        some { l with
          inSocket := l.inSocket.drop n
          conn := l.conn.readHeader stack (l.inSocket.take n) }
      else none
  | .pass io =>
      if l.conn.header ≠ none ∧ l.conn.relay.ctl.running = true ∧ io.allowed bufferSize = true ∧
          clientBytes io <+: l.inSocket ∧
          (clientBytes io ≠ [] → io.write₀ = .wrote io.read₀.bytes.length) then
        some { l with
          inSocket := l.inSocket.drop (clientBytes io).length
          conn := l.conn.relayPass io }
      else none

def link (stack : List UInt8) : Machine Link LinkAct := ⟨linkStep stack⟩

def openSession (strerror : Errno → String) (c : DaemonCalls) (g : Globals) : Option Link :=
  let (id, g, calls) := startPtyDaemon strerror c g
  -- a negative id says that there is no session
  if id < 0 then none
  else (findSession g id).map fun s =>
    { globals := g, id, fd := s.master_fd, inSocket := streamed s.master_fd calls }

/-- The bytes written to the PTY master are those passed to `WritePty`, and none of these was taken
for the window size. -/
def Link.Exact (l : Link) : Prop :=
  l.conn.relay.up.accepted = l.passed ∧ ∀ bs, l.conn.header = some bs → bs = []

end Kworker.Terminal

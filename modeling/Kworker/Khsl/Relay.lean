import Kworker.Posix.Io

/-!
# The relay loop of the khsl client

The loop at the end of `khsl/main.c`, between standard input (descriptor 0, direction `up`) and the
socket of the daemon (descriptor 1, direction `down`).
-/

namespace Kworker.Khsl

open Kworker.Posix

/-- `read`, `if (n <= 0) break;`, `write`: the same text for both descriptors, of a process that goes on after its
`write`. What becomes of it else is in `processPass`. -/
def forward (rd : ReadResult) (wr : WriteResult) (c : Ctl) (l : Leg) : Ctl × Leg :=
  let c := { c with reads := c.reads ++ [rd] }
  match rd with
  | .data bs _ => (c.wrote wr, (l.read bs).write bs wr)
  | .eof => ({ c with running := false }, l)
  | .error e => ({ c with errno := e, running := false }, l)

def fromStdin (rd : ReadResult) (wr : WriteResult) (s : Relay) : Relay :=
  let (ctl, up) := forward rd wr s.ctl s.up
  { s with ctl, up }

def fromSock (rd : ReadResult) (wr : WriteResult) (s : Relay) : Relay :=
  let (ctl, down) := forward rd wr s.ctl s.down
  { s with ctl, down }

/-- One pass of `while (1)`. After a `break` in the first half the second is not reached. -/
def pass (s : Relay) (io : PassIo) : Relay :=
  let s := { s with ctl := { s.ctl with reads := [] } }
  match io.poll with
  | .error e => { s with ctl := { s.ctl with errno := e, running := decide (e = EINTR) } }
  | .ready r₀ r₁ =>
      let s := if r₀.POLLIN then fromStdin io.read₀ io.write₀ s else s
      if s.ctl.running = true ∧ r₁.POLLIN = true then fromSock io.read₁ io.write₁ s else s

/-- One pass, where a `write` that fails with `EPIPE` ends the process if SIGPIPE is not ignored. -/
def processPass (sigpipe : Disposition) (s : Relay) (io : PassIo) : Relay :=
  match io.poll with
  | .ready r₀ _ =>
      if sigpipe.kills r₀ io.read₀ io.write₀ then
        (fromStdin io.read₀ io.write₀ { s with ctl := { s.ctl with reads := [] } }).stop
      -- a loop that is left in the first half does not come to the second `write`
      else if io.kills sigpipe then (pass s io).stop
      else pass s io
  | .error _ => pass s io

/-- A read of the pass returns 0 or fails, which leaves the loop. -/
def PassEnds (io : PassIo) : Prop :=
  match io.poll with
  | .error e => e ≠ EINTR
  | .ready r₀ r₁ =>
      (r₀.POLLIN = true ∧ io.read₀.bytes = []) ∨ (r₁.POLLIN = true ∧ io.read₁.bytes = [])

end Kworker.Khsl

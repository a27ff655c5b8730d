import Kworker.Lib.Machine
import Kworker.Posix.Io

/-!
# The relay loop of the daemon's connection process

The loop of `kh_term_daemon/main.cpp` between `client_fd` (descriptor 0, direction `up`) and
`master_fd` (descriptor 1, direction `down`), and the end of the session after it.
-/

namespace Kworker.Daemon

open Kworker.Posix Kworker.Lib

/-- `char buffer[4096]` -/
def bufferSize : Nat := 4096

/-- The body of `if (pfds[i].revents & POLLIN)`, the same text for both descriptors, of a process that goes on
after its `write`: either this does not fail with `EPIPE`, or SIGPIPE is ignored. What becomes of the process
else is in `processPass`. -/
def forward (revents : Revents) (rd : ReadResult) (wr : WriteResult) (c : Ctl) (l : Leg) : Ctl × Leg :=
  if revents.POLLIN then
    let c := { c with reads := c.reads ++ [rd] }
    match rd with
    | .data bs _ => (c.wrote wr, (l.read bs).write bs wr)
    -- `n <= 0 && errno != EAGAIN`: a read that returns 0 does not set `errno`
    | .eof => (if c.errno ≠ EAGAIN then { c with running := false } else c, l)
    | .error e => (if e ≠ EAGAIN then { c with errno := e, running := false }
        else { c with errno := e }, l)
  else (c, l)

def fromClient (revents : Revents) (rd : ReadResult) (wr : WriteResult) (s : Relay) : Relay :=
  let (ctl, up) := forward revents rd wr s.ctl s.up
  { s with ctl, up }

def fromPty (revents : Revents) (rd : ReadResult) (wr : WriteResult) (s : Relay) : Relay :=
  let (ctl, down) := forward revents rd wr s.ctl s.down
  { s with ctl, down }

def pass (s : Relay) (io : PassIo) : Relay :=
  let s := { s with ctl := { s.ctl with reads := [] } }
  match io.poll with
  | .error e =>
      -- `continue` on `EINTR`, `break` otherwise
      { s with ctl := { s.ctl with errno := e, running := decide (e = EINTR) } }
  | .ready r₀ r₁ => fromPty r₁ io.read₁ io.write₁ (fromClient r₀ io.read₀ io.write₀ s)

/-- The loop as a machine whose actions are the results of the calls of a pass. -/
def relayLoop : Machine Relay PassIo where
  step s io := if s.ctl.running = true ∧ io.allowed bufferSize = true then some (pass s io) else none

/-! ## Which passes leave the loop -/

/-- The result of a read leaves the loop, `errno` being what the last failing call left. -/
def EndsLoop (errno : Errno) : ReadResult → Prop
  | .data _ _ => False
  | .eof => errno ≠ EAGAIN
  | .error e => e ≠ EAGAIN

/-- `errno` when the second half of a pass begins. -/
def errnoBetween (errno : Errno) (revents : Revents) (rd : ReadResult) (wr : WriteResult) : Errno :=
  if revents.POLLIN then
    match rd, wr with
    | .data _ _, .wrote _ => errno
    | .data _ _, .error e => e
    | .eof, _ => errno
    | .error e, _ => e
  else errno

def PassEnds (errno : Errno) (io : PassIo) : Prop :=
  match io.poll with
  | .error e => e ≠ EINTR
  | .ready r₀ r₁ =>
      (r₀.POLLIN = true ∧ EndsLoop errno io.read₀) ∨
      (r₁.POLLIN = true ∧ EndsLoop (errnoBetween errno r₀ io.read₀ io.write₀) io.read₁)

/-! ## The end of the session -/

inductive EndCall where
  | closeClient
  | closeMaster
  | killShell
  | waitpidShell
  | exit (status : Int)
  deriving DecidableEq, Repr

def sessionEnd : List EndCall := [.closeClient, .closeMaster, .killShell, .waitpidShell, .exit 0]

/-- `calls` is what the connection process has called after its loop. -/
structure Process where
  relay : Relay
  calls : List EndCall := []

/-- A pass and, when the loop is left, what comes after it. Nothing in the program changes what SIGPIPE does: where
it is not ignored, the first `write` that fails with `EPIPE` is the end. -/
def processPass (sigpipe : Disposition) (s : Relay) (io : PassIo) : Process :=
  match io.poll with
  | .ready r₀ _ =>
      if sigpipe.kills r₀ io.read₀ io.write₀ then
        { relay := (fromClient r₀ io.read₀ io.write₀ { s with ctl := { s.ctl with reads := [] } }).stop }
      else if io.kills sigpipe then { relay := (pass s io).stop }
      else { relay := pass s io, calls := if (pass s io).ctl.running then [] else sessionEnd }
  | .error _ => { relay := pass s io, calls := if (pass s io).ctl.running then [] else sessionEnd }

/-- The process over the given passes, up to its end. -/
def session (sigpipe : Disposition) : Relay → List PassIo → Process
  | s, [] => { relay := s }
  | s, io :: ios =>
      let p := processPass sigpipe s io
      if p.relay.ctl.running then session sigpipe p.relay ios else p

/-- When the process is at its end, it has killed the shell and waited for it. -/
def Process.Reaped (p : Process) : Prop :=
  p.relay.ctl.running = false → .killShell ∈ p.calls ∧ .waitpidShell ∈ p.calls

end Kworker.Daemon

import Kworker.Lib.Machine
import Kworker.Posix.Fd

/-!
# The processes of the daemon

The loop of `kh_term_daemon/main.cpp` that accepts connections, the connection process that it forks for
each, and the session child of `forkpty`: their descriptor tables, in any order of the steps of the
processes. A connection is named by its number, counted from 0.
-/

namespace Kworker.Daemon

open Kworker.Posix Kworker.Lib

/-! ## The processes -/

inductive ServerFile where
  /-- the daemon was started with it -/
  | before
  | listening
  | client (id : Nat)
  | master (id : Nat)
  | slave (id : Nat)
  deriving DecidableEq, Repr

/-- How far a connection process is: just forked, at the window size, or in its relay loop. -/
inductive ConnPhase where
  | forked
  | waiting
  | relaying (master_fd : Nat)
  deriving DecidableEq, Repr

structure ConnProc where
  client_fd : Nat
  phase : ConnPhase := .forked
  fds : FdTable ServerFile

/-- A session child, and the shell from `exec` on. -/
structure SessionProc where
  client_fd : Nat
  shell : Bool := false
  fds : FdTable ServerFile

structure Server where
  server_fd : Nat
  main : FdTable ServerFile
  accepted : Nat := 0
  conns : Nat → Option ConnProc := fun _ => none
  children : Nat → Option SessionProc := fun _ => none

/-- The daemon listens. `before` says which descriptors it was started with, and whether they have
`FD_CLOEXEC`. -/
def Server.listen (before : Nat → Option Bool) (server_fd : Nat) : Server where
  server_fd
  main := FdTable.openAt (fun fd => (before fd).map (⟨.before, ·⟩)) server_fd .listening

/-- The table of the child of `forkpty`: `login_tty` makes the slave its standard input and outputs. -/
def forkptyChild (master_fd slave_fd : Nat) (id : Nat) (fds : FdTable ServerFile) : FdTable ServerFile :=
  let fds := ((fds.openAt master_fd (.master id)).openAt slave_fd (.slave id)).close master_fd
  let fds := fds.dup2Stdio slave_fd
  if slave_fd > 2 then fds.close slave_fd else fds

/-! ## Their steps -/

inductive ServerAct where
  /-- `accept` returns `client_fd`; then `fork` succeeds or fails, and the daemon closes it -/
  | accept (client_fd : Nat) (fork : Bool)
  | acceptFails
  /-- the connection process closes `server_fd` -/
  | closeServer (id : Nat)
  /-- the window size is read; `forkpty` returns `master_fd`, with this descriptor for the slave, or
  fails -/
  | connect (id : Nat) (forkpty : Option (Nat × Nat))
  /-- the session child executes a shell, or none of those it tries -/
  | execShell (id : Nat) (ok : Bool)
  | shellExits (id : Nat)
  /-- the relay loop is left, and the session ended -/
  | endSession (id : Nat)

/-- The system hands out only descriptors that are not in use. -/
def serverStep (s : Server) : ServerAct → Option Server
  | .accept client_fd fork =>
      if s.main client_fd = none then
        let fds := s.main.openAt client_fd (.client s.accepted)
        some { s with
          main := fds.close client_fd
          accepted := s.accepted + 1
          conns := if fork then Function.update s.conns s.accepted (some { client_fd, fds }) else s.conns }
      else none
  | .acceptFails => some s
  | .closeServer id =>
      match s.conns id with
      | some { client_fd, phase := .forked, fds } => some { s with
          conns := Function.update s.conns id
            (some { client_fd, phase := .waiting, fds := fds.close s.server_fd }) }
      | _ => none
  | .connect id forkpty =>
      match s.conns id with
      | some { client_fd, phase := .waiting, fds } =>
          match forkpty with
          | none => some { s with conns := Function.update s.conns id none }
          | some (master_fd, slave_fd) =>
              if fds master_fd = none ∧ fds slave_fd = none ∧ master_fd ≠ slave_fd then
                some { s with
                  conns := Function.update s.conns id
                    (some { client_fd, phase := .relaying master_fd, fds := fds.openAt master_fd (.master id) })
                  children := Function.update s.children id
                    (some { client_fd, fds := forkptyChild master_fd slave_fd id fds }) }
              else none
      | _ => none
  | .execShell id ok =>
      match s.children id with
      | some { client_fd, shell := false, fds } =>
          some { s with
            children := Function.update s.children id
              (if ok then some { client_fd, shell := true, fds := fds.exec } else none) }
      | _ => none
  | .shellExits id =>
      match s.children id with
      | some { shell := true, .. } => some { s with children := Function.update s.children id none }
      | _ => none
  | .endSession id =>
      match s.conns id with
      -- both descriptors are closed, and the child is killed; what it has started itself is not modelled
      | some { phase := .relaying _, .. } => some { s with
          conns := Function.update s.conns id none
          children := Function.update s.children id none }
      | _ => none

def server : Machine Server ServerAct := ⟨serverStep⟩

/-! ## Who should hold what -/

/-- What `fd` refers to in the table. -/
def fileAt (t : FdTable ServerFile) (fd : Nat) : Option ServerFile := (t fd).map (·.file)

/-- Some process holds the file. -/
inductive Server.Holds (s : Server) (file : ServerFile) : Prop
  | main {fd : Nat} (h : fileAt s.main fd = some file)
  | conn {id fd : Nat} {c : ConnProc} (hc : s.conns id = some c) (h : fileAt c.fds fd = some file)
  | child {id fd : Nat} {c : SessionProc} (hc : s.children id = some c) (h : fileAt c.fds fd = some file)

/-- The daemon keeps the descriptors it listens with; a connection process that has closed `server_fd` has,
besides those it was started with, its own socket and PTY; a session child its own slave and its own socket.
Some process holds a socket exactly as long as its connection process lives. -/
structure Server.Isolated (before : Nat → Option Bool) (s : Server) : Prop where
  main : s.main = (Server.listen before s.server_fd).main
  conn : ∀ id c, s.conns id = some c → c.phase ≠ .forked → ∀ fd file, fileAt c.fds fd = some file →
    file = .before ∨ file = .client id ∨ file = .master id
  child : ∀ id c, s.children id = some c → ∀ fd file, fileAt c.fds fd = some file →
    if fd ≤ 2 then file = .slave id else file = .before ∨ file = .client id ∧ fd = c.client_fd
  stdio : ∀ id c, s.children id = some c → ∀ fd ≤ 2, fileAt c.fds fd = some (.slave id)
  sockets : ∀ id, s.Holds (.client id) ↔ (s.conns id).isSome
  masters : ∀ id, s.Holds (.master id) ↔ ∃ c m, s.conns id = some c ∧ c.phase = .relaying m
  slaves : ∀ id, s.Holds (.slave id) ↔ (s.children id).isSome

end Kworker.Daemon

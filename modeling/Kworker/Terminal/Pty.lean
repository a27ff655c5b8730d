import Kworker.Lib.Machine
import Kworker.Posix.Fd
import Kworker.Terminal.Napi

/-!
# The native module of the terminal: sessions and their processes

`StartPty` and `StopPty` of `napi_init.cpp` for every profile, with the descriptor table of the process
and the shells that it starts.
-/

namespace Kworker.Terminal

open Kworker.Posix Kworker.Lib

/-! ## Calls and state -/

inductive PtyFile where
  /-- the process had it before the first `StartPty` -/
  | before
  | master (id : Int)
  | socket (id : Int)
  | slave (id : Int)
  deriving DecidableEq, Repr

/-- A shell at the moment it is exec'd. -/
structure Shell where
  session_id : Int
  argv : List String
  fds : FdTable PtyFile

/-- `children` lists the child processes that have not been waited for, `shells` all shells exec'd so
far. -/
structure Native where
  globals : Globals := {}
  fds : FdTable PtyFile
  children : List Nat := []
  shells : List Shell := []

/-- What the calls in the forked child return. -/
structure ChildCalls where
  setsid : Except Errno Unit := .ok ()
  openSlave : Except Errno Nat
  execv : List String → Bool

/-- What the calls of `spawn_shell_with_pty` return, and `errno` after them. -/
structure SpawnCalls where
  openSlave : Except Errno Nat
  file_actions_init : Except Errno Unit := .ok ()
  posix_spawn : List String → Except Errno Nat
  errno : Errno := 0

structure ShellCalls where
  posix_openpt : Except Errno Nat
  grantpt : Except Errno Unit := .ok ()
  unlockpt : Except Errno Unit := .ok ()
  ptsname : Except Errno Unit := .ok ()
  fork : Except Errno Nat
  child : ChildCalls
  spawn : SpawnCalls
  tsfn : Int := napi_ok

def Native.diag (p : Native) (text : String) : Native :=
  { p with globals := { p.globals with g_last_pty_diag := text } }

def Native.close (p : Native) (fd : Nat) : Native := { p with fds := p.fds.close fd }

/-! ## Shells -/

def resolve_shell_paths (profile : String) : List String :=
  if profile = "khsl" then ["/vendor/bin/khsl", "/system/bin/khsl", "/usr/bin/khsl", "/bin/khsl"]
  else ["/system/bin/sh", "/bin/sh", "/vendor/bin/sh", "/system/bin/bash"]

/-- What the child passes to `execv`, in this order. -/
def execArgvs (profile : String) : List (List String) :=
  (resolve_shell_paths profile).flatMap fun path => [[path, "-i"], [path]]

def spawnArgvs (profile : String) : List (List String) :=
  (resolve_shell_paths profile).flatMap fun sh =>
    [[sh, "-i"], [sh, "-c", "export TERM=xterm-256color; exec " ++ sh ++ " -i"], [sh]]

def exec_shell_on_slave (c : ChildCalls) (profile : String) (id : Int) (master_fd : Nat)
    (fds : FdTable PtyFile) : Option Shell :=
  let fds := fds.close master_fd
  match c.setsid, c.openSlave with
  | .ok (), .ok slave_fd =>
      let fds := (fds.openAt slave_fd (.slave id)).dup2Stdio slave_fd
      let fds := if slave_fd > 2 then fds.close slave_fd else fds
      ((execArgvs profile).find? c.execv).map fun argv => { session_id := id, argv, fds := fds.exec }
  | _, _ => none

/-- The first attempt that succeeds, with its arguments, or the error of the last attempt. -/
def firstSpawned (posix_spawn : List String → Except Errno Nat) :
    List (List String) → Errno → Except Errno (Nat × List String)
  | [], e => .error e
  | argv :: argvs, _ =>
      match posix_spawn argv with
      | .ok pid => .ok (pid, argv)
      | .error e => firstSpawned posix_spawn argvs e

def spawn_shell_with_pty (strerror : Errno → String) (c : SpawnCalls) (profile : String) (id : Int)
    (p : Native) : Option Nat × Native :=
  match c.openSlave with
  | .error e => (none, p.diag (errnoText strerror "spawn: open slave failed" e))
  | .ok slave_fd =>
      let opened := { p with fds := p.fds.openAt slave_fd (.slave id) }
      match c.file_actions_init with
      | .error e => (none, (opened.close slave_fd).diag ("spawn: file_actions_init errno=" ++ toString e))
      | .ok () =>
          match firstSpawned c.posix_spawn (spawnArgvs profile) (-1) with
          | .error e => (none, (opened.close slave_fd).diag
              ("posix_spawn all attempts failed last_err=" ++ toString e ++ " errno=" ++ toString c.errno ++
                " " ++ strerror c.errno))
          | .ok (pid, argv) =>
              let fds := (opened.fds.dup2Stdio slave_fd).close slave_fd
              let shell : Shell := { session_id := id, argv, fds := fds.exec }
              let opened := { opened with
                children := pid :: opened.children
                shells := opened.shells ++ [shell] }
              (some pid, opened.close slave_fd)

/-- What `StartPty` does while it holds `g_fork_mutex`: the pid of the child, if there is one. -/
def startChild (strerror : Errno → String) (c : ShellCalls) (profile : String) (id : Int)
    (master_fd : Nat) (p : Native) : Option Nat × Native :=
  match c.fork with
  | .ok pid => (some pid, { p with
      children := pid :: p.children
      shells := p.shells ++ (exec_shell_on_slave c.child profile id master_fd p.fds).toList })
  | .error e =>
      spawn_shell_with_pty strerror c.spawn profile id
        (p.diag (errnoText strerror "fork" e ++ "; trying posix_spawn"))

/-! ## StartPty -/

/-- The rest of `StartPty`, once a child was to be started. -/
def finishStart (c : ShellCalls) (new_id : Int) (master_fd : Nat) : Option Nat × Native → Int × Native
  | (none, p) =>
      let p := if p.globals.g_last_pty_diag = "" then
        p.diag "no child process (fork and posix_spawn failed)" else p
      (-1, p.close master_fd)
  | (some pid, p) =>
      if c.tsfn ≠ napi_ok then
        let p := p.diag ("napi_create_threadsafe_function status=" ++ toString c.tsfn)
        (-1, { p with children := p.children.erase pid }.close master_fd)
      else
        let session :=
          { id := new_id, master_fd, child_pid := pid, daemon_mode := false, running := true }
        (new_id, { p with globals := p.globals.insert new_id session }.diag "ok")

/-- `StartPty` for a profile other than `daemon`. -/
def startPtyShell (strerror : Errno → String) (c : ShellCalls) (profile : String) (p : Native) :
    Int × Native :=
  let new_id := p.globals.g_next_session_id
  let p := { p with
    globals := { p.globals with g_last_pty_diag := "", g_next_session_id := new_id + 1 } }
  match c.posix_openpt with
  | .error e => (-1, p.diag (errnoText strerror "posix_openpt" e))
  | .ok master_fd =>
      let p := { p with fds := p.fds.openAt master_fd (.master new_id) }
      match c.grantpt, c.unlockpt, c.ptsname with
      | .error e, _, _ | .ok (), .error e, _ =>
          (-1, (p.diag (errnoText strerror "grantpt/unlockpt" e)).close master_fd)
      | .ok (), .ok (), .error e => (-1, (p.diag ("ptsname failed errno=" ++ toString e)).close master_fd)
      | .ok (), .ok (), .ok () =>
          finishStart c new_id master_fd (startChild strerror c profile new_id master_fd p)

/-- The descriptor that the calls leave open. -/
def daemonFds (c : DaemonCalls) (calls : List SockCall) (id : Int) (fds : FdTable PtyFile) :
    FdTable PtyFile :=
  match c.socket with
  | .error _ => fds
  | .ok sock =>
      calls.foldl (fun fds call => match call with | .close fd => fds.close fd.toNat | _ => fds)
        (fds.openAt sock (.socket id))

def startPty (strerror : Errno → String) (profile : String) (d : DaemonCalls) (c : ShellCalls)
    (p : Native) : Int × Native :=
  if profile = "daemon" then
    let (id, globals, calls) := startPtyDaemon strerror d p.globals
    (id, { p with globals, fds := daemonFds d calls p.globals.g_next_session_id p.fds })
  else startPtyShell strerror c profile p

/-! ## StopPty -/

def destroy_session_locked (s : PtySession) (p : Native) : Native :=
  let p := if s.daemon_mode = false ∧ s.child_pid > 0 then
    { p with children := p.children.erase s.child_pid.toNat } else p
  if s.master_fd ≥ 0 then p.close s.master_fd.toNat else p

def Globals.erase (g : Globals) (id : Int) : Globals :=
  { g with g_sessions := g.g_sessions.filter (·.1 ≠ id) }

def stopSession (p : Native) (id : Int) : Native :=
  match findSession p.globals id with
  | none => p
  | some s => destroy_session_locked s { p with globals := p.globals.erase id }

def stopAll (p : Native) : Native := (p.globals.g_sessions.map (·.1)).foldl stopSession p

/-- `none` is a call without an argument or with `undefined`. -/
def stopPty (session_id : Option Int) (p : Native) : Native :=
  match session_id with
  | none => stopAll p
  | some id => if id < 0 then stopAll p else stopSession p id

/-! ## All calls -/

inductive NativeAct where
  | startPty (profile : String) (daemon : DaemonCalls) (shell : ShellCalls)
  | stopPty (session_id : Option Int)

/-- The system hands out only numbers of descriptors and processes that are not in use. -/
def NativeAct.allowed (p : Native) : NativeAct → Bool
  | .startPty profile d c =>
      let free fd := (p.fds fd).isNone
      let fresh pid := 0 < pid && pid ∉ p.children
      if profile = "daemon" then d.socket.toOption.all free
      else
        c.posix_openpt.toOption.all free && c.child.openSlave.toOption.all free &&
          c.spawn.openSlave.toOption.all (fun fd => free fd && c.posix_openpt.toOption ≠ some fd) &&
          c.fork.toOption.all fresh &&
          (spawnArgvs profile).all (fun argv => (c.spawn.posix_spawn argv).toOption.all fresh)
  | .stopPty _ => true

def nativeStep (strerror : Errno → String) (p : Native) (a : NativeAct) : Option Native :=
  if a.allowed p then
    match a with
    | .startPty profile d c => some (startPty strerror profile d c p).2
    | .stopPty session_id => some (stopPty session_id p)
  else none

def native (strerror : Errno → String) : Machine Native NativeAct := ⟨nativeStep strerror⟩

/-- The state before the first `StartPty`; `before` says which descriptors there are, and whether they
have `FD_CLOEXEC`. -/
def Native.initial (before : Nat → Option Bool) : Native where
  fds fd := (before fd).map (⟨.before, ·⟩)

/-! ## What a start should leave -/

def getLastPtyError (g : Globals) : String := g.g_last_pty_diag

/-- `q` has this session more than `p`, and for it one descriptor and, unless the daemon is its shell, one
child. -/
structure Native.Gains (p : Native) (profile : String) (s : PtySession) (q : Native) : Prop where
  sessions : q.globals.g_sessions = (s.id, s) :: p.globals.g_sessions
  mode : s.daemon_mode = decide (profile = "daemon")
  descriptor : ∃ (fd : Nat) (file : PtyFile), s.master_fd = fd ∧ p.fds fd = none ∧ q.fds = p.fds.openAt fd file
  child : if profile = "daemon" then s.child_pid = -1 ∧ q.children = p.children
    else ∃ pid : Nat, s.child_pid = pid ∧ pid ∉ p.children ∧ q.children = pid :: p.children

/-- What `StartPty` returned and left: -1 and nothing but a text, or the id of the session gained. -/
structure Native.StartsWhole (p : Native) (profile : String) (r : Int × Native) : Prop where
  failed : r.1 = -1 → r.2.fds = p.fds ∧ r.2.children = p.children ∧
    r.2.globals.g_sessions = p.globals.g_sessions ∧ getLastPtyError r.2.globals ≠ ""
  started : r.1 ≠ -1 → 1 ≤ r.1 ∧ ∃ s, s.id = r.1 ∧ p.Gains profile s r.2

/-! ## What a shell should hold -/

/-- Besides what the process had before, the shell holds only its own slave, as 0, 1 and 2. -/
def Shell.Confined (sh : Shell) : Prop :=
  (∀ fd ≤ 2, sh.fds fd = some ⟨.slave sh.session_id, false⟩) ∧
    ∀ fd d, 2 < fd → sh.fds fd = some d → d.file = .before

/-- The master with which a child is started. -/
def ShellCalls.master (c : ShellCalls) : Option Nat :=
  match c.grantpt, c.unlockpt, c.ptsname with
  | .ok (), .ok (), .ok () => c.posix_openpt.toOption
  | _, _, _ => none

/-- The forked child gets as far as a successful `execv`. -/
def ShellCalls.Forks (c : ShellCalls) (profile : String) : Prop :=
  c.fork.isOk ∧ c.child.setsid.isOk ∧ c.child.openSlave.isOk ∧ ∃ argv ∈ execArgvs profile, c.child.execv argv

/-- `fork` fails, and `posix_spawn` succeeds with this number for the slave. -/
def ShellCalls.Spawns (c : ShellCalls) (profile : String) (slave_fd : Nat) : Prop :=
  c.fork.isOk = false ∧ c.spawn.openSlave = .ok slave_fd ∧ c.spawn.file_actions_init.isOk ∧
    ∃ argv ∈ spawnArgvs profile, (c.spawn.posix_spawn argv).isOk

/-- No live session has a descriptor above 2. -/
def Native.NoneAbove (p : Native) : Prop := ∀ e ∈ p.globals.g_sessions, e.2.master_fd ≤ 2

/-- A shell is exec'd by a forked child, while no live session has a descriptor above 2; or it comes
from `posix_spawn`, and the new master has no number above 2 either, and the slave has. -/
def StartsConfined (p : Native) : NativeAct → Prop
  | .startPty profile _ c => profile ≠ "daemon" → ∀ master_fd, c.master = some master_fd →
      (c.Forks profile → p.NoneAbove) ∧
      ∀ slave_fd, c.Spawns profile slave_fd → p.NoneAbove ∧ master_fd ≤ 2 ∧ 2 < slave_fd
  | .stopPty _ => True

end Kworker.Terminal

import Kworker.Daemon.Lemmas.Install
import Kworker.Daemon.Lemmas.Login
import Kworker.Daemon.Lemmas.Relay
import Kworker.Daemon.Lemmas.Server

/-!
# The daemon
-/

namespace Kworker.Daemon

open Kworker.Posix Kworker.Lib

/-! ## The relay loop loses bytes exactly when a write is not complete -/

theorem pass_lossless_iff {s : Relay} {io : PassIo} (hs : s.ctl.running = true)
    (hio : io.allowed bufferSize = true) (h : s.Lossless) :
    (pass s io).Lossless ↔ (¬ PassEnds s.ctl.errno io → io.WritesComplete) := by
  simp only [Relay.Lossless, hs, if_true] at h
  obtain ⟨hup, hdown⟩ := h
  by_cases hend : PassEnds s.ctl.errno io
  · have hleft := (pass_left hs).mpr hend
    simp only [Relay.Lossless, hleft, Bool.false_eq_true, if_false, hend, not_true, false_implies,
      iff_true]
    cases hp : io.poll with
    | error e =>
        obtain ⟨hu, hd⟩ := pass_error (s := s) hp
        rw [hu, hd]
        exact ⟨hup.noGap, hdown.noGap⟩
    | ready r₀ r₁ =>
        rw [pass_up hp, pass_down hp]
        exact ⟨forward_noGap _ _ _ _ hup, forward_noGap _ _ _ _ hdown⟩
  · have hgo := (pass_running hs).mpr hend
    simp only [Relay.Lossless, hgo, if_true, hend, not_false_iff, true_implies]
    cases hp : io.poll with
    | error e =>
        obtain ⟨hu, hd⟩ := pass_error (s := s) hp
        rw [hu, hd]
        simp only [PassIo.WritesComplete, hp, iff_true]
        exact ⟨hup, hdown⟩
    | ready r₀ r₁ =>
        simp only [PassIo.allowed, Bool.and_eq_true] at hio
        obtain ⟨⟨_, hw₀⟩, hw₁⟩ := hio
        rw [pass_up hp, pass_down hp, forward_complete _ _ _ _ hup hw₀,
          forward_complete _ _ _ _ hdown hw₁]
        simp only [PassIo.WritesComplete, hp]

/-- In every run of the loop, whatever `errno` was before, all that was read is passed on in order
exactly if every write of a pass after which the loop goes on takes its whole buffer. -/
theorem relay_lossless_iff (errno : Errno) (ios : List PassIo) :
    relayLoop.Always Relay.Lossless { ctl := { errno } } ios ↔
      relayLoop.Guarded (fun s io => ¬ PassEnds s.ctl.errno io → io.WritesComplete)
        { ctl := { errno } } ios := by
  apply relayLoop.always_iff_guarded (I := fun _ => True) (fun _ _ _ _ _ => trivial)
  · intro s io s' _ hP hstep
    simp only [relayLoop, Option.ite_none_right_eq_some, Option.some.injEq] at hstep
    obtain ⟨⟨hs, hio⟩, rfl⟩ := hstep
    exact pass_lossless_iff hs hio hP
  · trivial
  · exact ⟨rfl, rfl⟩

/-- The client sends two bytes while the PTY is full: the loop goes on without them. -/
theorem relay_loses_refused_bytes :
    ¬ relayLoop.Always Relay.Lossless {} [{
      poll := .ready { POLLIN := true } {}
      read₀ := .data [0x6c, 0x73] (by decide)
      write₀ := .error EAGAIN }] := by
  intro h
  have hend := h _ _ List.prefix_rfl rfl
  simp only [Relay.Lossless] at hend
  have hup := hend.1
  simp [pass, fromClient, fromPty, forward, Ctl.wrote, Leg.read, Leg.write, Leg.Complete] at hup

/-! ## The credentials of the shell on the host -/

/-- Whatever the calls of the session child come back with: on the host it executes nothing, or a shell
with the ids of the shell user and without supplementary groups, exactly if neither of the two shells
can be executed. -/
theorem host_shell_confined_iff (c : ChildCalls) (gidOf : String → Nat) (env : Env)
    (h : c.HostPath) :
    (sessionChild c { cred := serviceCred gidOf, env }).2.Confined ↔
      c.execOk .host "/system/bin/sh" = false ∧ c.execOk .host "/bin/sh" = false := by
  obtain ⟨q, hcred, hroot, hout⟩ := sessionChild_host h { cred := serviceCred gidOf, env }
  have hq : ¬ q.cred.Are shellId shellId [] := by
    rw [hcred]
    exact dropPrivileges_not_confined c gidOf
  rw [hout, execFirst_confined hq, hroot]
  simp [hostShell]

theorem host_shell_confined_iff_no_rootfs :
    ((sessionChild { execOk := fun _ path => path = "/bin/sh" }
        { cred := serviceCred (fun _ => 0), env := Env.empty }).2.Confined ↔
      decide ("/system/bin/sh" = "/bin/sh") = false ∧ decide ("/bin/sh" = "/bin/sh") = false) :=
  host_shell_confined_iff { execOk := fun _ path => path = "/bin/sh" } (fun _ => 0) Env.empty (by decide)

/-- The rootfs is missing and `setgid` and `setuid` succeed: the shell keeps the groups of the
service. -/
theorem host_shell_keeps_groups :
    ∃ argv p, (sessionChild
        { setgidOk := true, setuidOk := true, setgroupsOk := true
          execOk := fun _ path => path = "/system/bin/sh" }
        { cred := serviceCred fun name => serviceGroups.idxOf name }).2 =
          .exec "/system/bin/sh" argv p ∧
      p.cred.Are shellId shellId [0, 1, 2, 3] ∧ ¬ p.cred.Are shellId shellId [] :=
  ⟨_, _, rfl, by decide, by decide⟩

/-! ## The login of a session in the Ubuntu root -/

/-- A session in the Ubuntu root in which every program can be executed. -/
def ubuntuCalls (file : Option (List UInt8)) : ChildCalls where
  rootfsIsDir := some true
  executable _ := true
  defaultUserFile := file
  chrootOk := true
  execOk _ _ := true

def sessionProc : Proc := { cred := serviceCred fun _ => 0 }

/-- In every order of the steps of the processes, which end by their own calls and not by a signal: the daemon gets
no descriptor more, a session child has the slave of its own PTY and no listening socket, no master and no socket
but its own, and the socket and the PTY of a session are held exactly as long as it lasts. What a shell starts is
not among the processes. -/
theorem server_isolates (before : Nat → Option Bool) (server_fd : Nat) (acts : List ServerAct) (s : Server)
    (hrun : server.run (.listen before server_fd) acts = some s) : s.Isolated before := by
  have hinv := server.run_invariant (fun _ _ _ => server_step_inv) (listen_inv before server_fd) hrun
  exact isolated_of_inv hinv

/-- Two sessions at once, and a connection for which `fork` fails. -/
def twoSessions : List ServerAct :=
  [.accept 4 true, .accept 4 false, .closeServer 0, .connect 0 (some (3, 5)), .accept 4 true, .execShell 0 true,
    .closeServer 2, .connect 2 (some (3, 5)), .endSession 0, .execShell 2 true]

/-- Started with its standard input and outputs. -/
def withStdio : Nat → Option Bool := fun fd => if fd ≤ 2 then some false else none

theorem server_isolates_two :
    ∃ s, server.run (.listen withStdio 3) twoSessions = some s ∧ s.Isolated withStdio :=
  ⟨_, rfl, server_isolates withStdio 3 twoSessions _ rfl⟩

/-! ## The first start -/

/-- In every order of the steps of any number of sessions, with any of them broken off anywhere and any of
their commands failing: as long as the file of the default user is not empty, the next session logs in as the
user in it, or asks for one if there is no file; this user is an ordinary one whose password was set, and so
is each that a script logs in. A session gets a shell of `root` exactly where the file is empty. -/
theorem first_start_sound (accounts : List UInt8 → Option Account) (hroot : (accounts rootName).isSome)
    (acts : List InstallAct) (s : Install) (hrun : install.run { accounts } acts = some s) : s.Sound := by
  have hinv : s.Inv := install_run_inv hroot hrun
  exact sound_of_inv hinv

def onlyRoot (name : List UInt8) : Option Account := if name = rootName then some {} else none

def ann : List UInt8 := [0x61, 0x6e, 0x6e]

/-- Two sessions ask at the same time, and both are given the same name. -/
def twoStarts : List InstallAct :=
  [.start 0 (ubuntuCalls none) sessionProc, .start 1 (ubuntuCalls none) sessionProc, .username 0 ann,
    .username 1 ann, .useradd 0 true, .useradd 1 false, .passwords 0 [0x31] [0x32], .passwords 0 [0x31] [0x31],
    .chpasswd 0 true, .username 1 ann, .openFile 0 true, .write 0 true, .leave 1]

theorem first_start_sound_two : ∃ s, install.run { accounts := onlyRoot } twoStarts = some s ∧ s.Sound :=
  ⟨_, rfl, first_start_sound onlyRoot rfl twoStarts _ rfl⟩

/-- As long as no script is broken off, and none fails to write, between opening the file and writing to it:
a session gets a shell of `root` only while another has the file open. -/
theorem root_shell_only_while_writing (accounts : List UInt8 → Option Account)
    (hroot : (accounts rootName).isSome) (acts : List InstallAct) (s : Install)
    (hdone : install.Guarded Completes { accounts } acts) (hrun : install.run { accounts } acts = some s)
    (c : ChildCalls) (hfile : c.defaultUserFile = s.file) (huse : useUbuntu c = true)
    (hname : defaultUser c = rootName) : ∃ id name, s.scripts id = some (.writing name) := by
  have hsound : s.Sound := sound_of_inv (install_run_inv hroot hrun)
  have hwritten : s.Written := install_run_written hdone hrun
  exact hwritten ((hsound.root c hfile huse).mp hname)

/-- A session starts while the file is open. -/
def startWhileOpen : List InstallAct :=
  [.start 0 (ubuntuCalls none) sessionProc, .username 0 ann, .useradd 0 true, .passwords 0 [] [],
    .chpasswd 0 true, .openFile 0 true]

theorem root_shell_only_while_writing_open : ∃ s, install.run { accounts := onlyRoot } startWhileOpen = some s ∧
    defaultUser (ubuntuCalls s.file) = rootName ∧ ∃ id name, s.scripts id = some (.writing name) := by
  refine ⟨_, rfl, rfl,
    root_shell_only_while_writing onlyRoot rfl startWhileOpen _ ?_ rfl (ubuntuCalls _) rfl rfl rfl⟩
  intro pre a t t' hpre _ _
  have hmem : a ∈ startWhileOpen := hpre.subset (List.mem_append_right _ List.mem_cons_self)
  simp only [startWhileOpen, List.mem_cons, List.not_mem_nil, or_false] at hmem
  rcases hmem with rfl | rfl | rfl | rfl | rfl | rfl <;> trivial

/-- A session that is broken off there leaves a file with which every later one gets a shell of `root`. -/
example : (install.run { accounts := onlyRoot } (startWhileOpen ++ [.leave 0])).map (·.file) = some (some []) := rfl

end Kworker.Daemon

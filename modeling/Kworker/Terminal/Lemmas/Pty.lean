import Kworker.Terminal.Lemmas.Link
import Kworker.Terminal.Pty

/-!
# Sessions, their descriptors and their shells
-/

namespace Kworker.Terminal

open Kworker.Posix Kworker.Lib

variable {strerror : Errno → String} {profile : String} {id : Int} {p q : Native} {c : ShellCalls}
  {fds : FdTable PtyFile} {master_fd slave_fd : Nat}

@[simp] theorem isOk_ok {ε α : Type} (a : α) : (Except.ok a : Except ε α).isOk = true := rfl

@[simp] theorem isOk_error {ε α : Type} (e : ε) : (Except.error e : Except ε α).isOk = false := rfl

/-! ## The tables of the shells -/

theorem exec_shell_fds {cc : ChildCalls} {sh : Shell} (hmaster : fds master_fd = none)
    (hslave : ∀ fd, cc.openSlave = .ok fd → fds fd = none)
    (h : exec_shell_on_slave cc profile id master_fd (fds.openAt master_fd (.master id)) = some sh) :
    sh.session_id = id ∧ ∃ t : FdTable PtyFile, sh.fds = t.exec ∧
      ∀ n, t n = if n ≤ 2 then some ⟨.slave id, false⟩ else fds n := by
  rw [exec_shell_on_slave, FdTable.close_openAt hmaster _] at h
  cases hsetsid : cc.setsid with
  | error e => simp [hsetsid] at h
  | ok u =>
      cases hopen : cc.openSlave with
      | error e => simp [hsetsid, hopen] at h
      | ok slave_fd =>
          simp only [hsetsid, hopen, Option.map_eq_some_iff] at h
          obtain ⟨argv, _, rfl⟩ := h
          exact ⟨rfl, _, rfl, FdTable.stdio_apply (hslave slave_fd hopen)⟩

theorem exec_shell_isSome_iff (cc : ChildCalls) :
    (exec_shell_on_slave cc profile id master_fd fds).isSome ↔
      cc.setsid.isOk ∧ cc.openSlave.isOk ∧ ∃ argv ∈ execArgvs profile, cc.execv argv := by
  unfold exec_shell_on_slave
  cases cc.setsid <;> cases cc.openSlave <;> simp

theorem firstSpawned_isOk_iff (f : List String → Except Errno Nat) (argvs : List (List String))
    (e : Errno) : (firstSpawned f argvs e).isOk ↔ ∃ argv ∈ argvs, (f argv).isOk := by
  induction argvs generalizing e with
  | nil => simp [firstSpawned]
  | cons argv argvs ih =>
      rw [firstSpawned]
      cases hf : f argv with
      | ok pid => simp [hf]
      | error e' => simp [hf, ih]

/-! ## What a new shell holds -/

/-- No descriptor above 2 that survives `exec` was opened by `StartPty`. -/
def PassesNone (fds : FdTable PtyFile) : Prop :=
  ∀ fd d, 2 < fd → fds fd = some d → d.cloexec = false → d.file = .before

theorem confined_forked_iff {sh : Shell} {t : FdTable PtyFile} (hid : sh.session_id = id)
    (hfds : sh.fds = t.exec)
    (ht : ∀ n, t n = if n ≤ 2 then some ⟨.slave id, false⟩ else fds n) :
    sh.Confined ↔ PassesNone fds := by
  simp only [Shell.Confined, hid, hfds, FdTable.exec_eq_some_iff, ht]
  constructor
  · intro h fd d hfd hopen hcloexec
    exact h.2 fd d hfd ⟨by rw [if_neg (by omega), hopen], hcloexec⟩
  · intro h
    refine ⟨fun fd hfd => ⟨if_pos hfd, trivial⟩, fun fd d hfd hopen => ?_⟩
    rw [if_neg (by omega)] at hopen
    exact h fd d hfd hopen.1 hopen.2

theorem confined_spawned_iff {sh : Shell} (hid : sh.session_id = id) (hne : slave_fd ≠ master_fd)
    (hslave : fds slave_fd = none)
    (hfds : sh.fds = (FdTable.close (FdTable.dup2Stdio (FdTable.openAt (fds.openAt master_fd (.master id))
      slave_fd (.slave id)) slave_fd) slave_fd).exec) :
    sh.Confined ↔ PassesNone fds ∧ master_fd ≤ 2 ∧ 2 < slave_fd := by
  simp only [Shell.Confined, hid, hfds, FdTable.exec_eq_some_iff, FdTable.stdio_close_apply]
  constructor
  · rintro ⟨hstdio, habove⟩
    have hslave2 : 2 < slave_fd := by
      by_contra hle
      have hopen := (hstdio slave_fd (by omega)).1
      rw [if_pos rfl] at hopen
      cases hopen
    have hmaster2 : master_fd ≤ 2 := by
      by_contra hlt
      have hfile := habove master_fd ⟨.master id, false⟩ (by omega)
        ⟨by rw [if_neg hne.symm, if_neg hlt, FdTable.openAt_self], rfl⟩
      cases hfile
    refine ⟨fun fd d hfd hopen hcloexec => habove fd d hfd ⟨?_, hcloexec⟩, hmaster2, hslave2⟩
    have hfd' : fd ≠ slave_fd := by
      rintro rfl
      rw [hslave] at hopen
      cases hopen
    rw [if_neg hfd', if_neg (by omega), FdTable.openAt_of_ne (by omega), hopen]
  · rintro ⟨hnone, hmaster2, hslave2⟩
    refine ⟨fun fd hfd => ⟨by rw [if_neg (by omega), if_pos hfd], trivial⟩, ?_⟩
    rintro fd d hfd ⟨hopen, hcloexec⟩
    by_cases hfd' : fd = slave_fd
    · rw [if_pos hfd'] at hopen
      cases hopen
    · rw [if_neg hfd', if_neg (by omega), FdTable.openAt_of_ne (by omega)] at hopen
      exact hnone fd d hfd hopen hcloexec

/-! ## Starting a child -/

/-- What every way to start a child leaves alone. -/
structure KeepsAll (p : Native) (r : Option Nat × Native) : Prop where
  fds : r.2.fds = p.fds
  sessions : r.2.globals.g_sessions = p.globals.g_sessions
  next_id : r.2.globals.g_next_session_id = p.globals.g_next_session_id
  children : r.2.children = r.1.toList ++ p.children

theorem spawn_keeps {sc : SpawnCalls} (hslave : ∀ fd, sc.openSlave = .ok fd → p.fds fd = none) :
    KeepsAll p (spawn_shell_with_pty strerror sc profile id p) := by
  unfold spawn_shell_with_pty
  cases hopen : sc.openSlave with
  | error e => exact ⟨rfl, rfl, rfl, rfl⟩
  | ok slave_fd =>
      have hclose := FdTable.close_openAt (hslave slave_fd hopen) (.slave id)
      cases sc.file_actions_init with
      | error e => exact ⟨hclose, rfl, rfl, rfl⟩
      | ok u =>
          simp only
          cases firstSpawned sc.posix_spawn (spawnArgvs profile) (-1) with
          | error e => exact ⟨hclose, rfl, rfl, rfl⟩
          | ok r => exact ⟨hclose, rfl, rfl, rfl⟩

theorem startChild_keeps (hslave : ∀ fd, c.spawn.openSlave = .ok fd → p.fds fd = none) :
    KeepsAll p (startChild strerror c profile id master_fd p) := by
  unfold startChild
  cases c.fork with
  | ok pid => exact ⟨rfl, rfl, rfl, rfl⟩
  | error e =>
      let q := p.diag (errnoText strerror "fork" e ++ "; trying posix_spawn")
      have hq : KeepsAll q (spawn_shell_with_pty strerror c.spawn profile id q) := spawn_keeps hslave
      exact ⟨hq.fds, hq.sessions, hq.next_id, hq.children⟩

theorem forall_mem_append_singleton {shells : List Shell} {sh : Shell} {P : Shell → Prop} :
    (∀ s ∈ shells ++ [sh], P s) ↔ (∀ s ∈ shells, P s) ∧ P sh := by
  rw [List.forall_mem_append, List.forall_mem_singleton]

theorem forked_confined_iff (profile : String) (id : Int) (hmaster : fds master_fd = none)
    (hchild : ∀ fd, c.child.openSlave = .ok fd → fds fd = none) (hfork : c.fork.isOk) (shells : List Shell) :
    (∀ sh ∈ shells ++ (exec_shell_on_slave c.child profile id master_fd
      (fds.openAt master_fd (.master id))).toList, sh.Confined) ↔
      (∀ sh ∈ shells, sh.Confined) ∧ (c.Forks profile → PassesNone fds) := by
  have hforks : c.Forks profile ↔ (exec_shell_on_slave c.child profile id master_fd
      (fds.openAt master_fd (.master id))).isSome := by
    rw [exec_shell_isSome_iff, ShellCalls.Forks]
    exact and_iff_right hfork
  rw [hforks]
  cases hexec : exec_shell_on_slave c.child profile id master_fd (fds.openAt master_fd (.master id)) with
  | none => simp
  | some sh =>
      obtain ⟨hid, t, hfds, ht⟩ := exec_shell_fds hmaster hchild hexec
      rw [Option.toList_some, forall_mem_append_singleton, confined_forked_iff hid hfds ht]
      simp

theorem spawned_confined_iff (hfork : c.fork.isOk = false) (hfds : p.fds = fds.openAt master_fd (.master id))
    (hslave : ∀ fd, c.spawn.openSlave = .ok fd → fds fd = none ∧ fd ≠ master_fd) :
    (∀ sh ∈ (spawn_shell_with_pty strerror c.spawn profile id p).2.shells, sh.Confined) ↔
      (∀ sh ∈ p.shells, sh.Confined) ∧
        ∀ slave_fd, c.Spawns profile slave_fd → PassesNone fds ∧ master_fd ≤ 2 ∧ 2 < slave_fd := by
  unfold spawn_shell_with_pty ShellCalls.Spawns
  cases hopen : c.spawn.openSlave with
  | error e => simp [Native.diag]
  | ok slave_fd =>
      obtain ⟨hfree, hne⟩ := hslave slave_fd hopen
      cases c.spawn.file_actions_init with
      | error e => simp [Native.diag, Native.close]
      | ok u =>
          rw [hfds, ← firstSpawned_isOk_iff c.spawn.posix_spawn (spawnArgvs profile) (-1)]
          cases firstSpawned c.spawn.posix_spawn (spawnArgvs profile) (-1) with
          | error e => simp [Native.diag, Native.close]
          | ok r =>
              simp only [Native.close, forall_mem_append_singleton]
              rw [confined_spawned_iff rfl hne hfree rfl]
              simp [hfork]

theorem startChild_confined_iff (hfds : p.fds = fds.openAt master_fd (.master id))
    (hmaster : fds master_fd = none) (hchild : ∀ fd, c.child.openSlave = .ok fd → fds fd = none)
    (hslave : ∀ fd, c.spawn.openSlave = .ok fd → fds fd = none ∧ fd ≠ master_fd) :
    (∀ sh ∈ (startChild strerror c profile id master_fd p).2.shells, sh.Confined) ↔
      (∀ sh ∈ p.shells, sh.Confined) ∧ (c.Forks profile → PassesNone fds) ∧
        ∀ slave_fd, c.Spawns profile slave_fd → PassesNone fds ∧ master_fd ≤ 2 ∧ 2 < slave_fd := by
  cases hfork : c.fork with
  | ok pid =>
      have hok : c.fork.isOk = true := by rw [hfork, isOk_ok]
      have hspawns : ∀ slave_fd, ¬ c.Spawns profile slave_fd := by
        rintro slave_fd ⟨hno, _⟩
        rw [hok] at hno
        cases hno
      have hiff := forked_confined_iff profile id hmaster hchild hok p.shells
      rw [← hfds] at hiff
      simp only [startChild, hfork, hspawns, false_imp_iff, implies_true, and_true]
      exact hiff
  | error e =>
      have hno : c.fork.isOk = false := by rw [hfork, isOk_error]
      have hforks : ¬ c.Forks profile := by
        rintro ⟨hok, _⟩
        rw [hno] at hok
        cases hok
      simp only [startChild, hfork, hforks, false_imp_iff, true_and]
      exact spawned_confined_iff (p := p.diag _) hno hfds hslave

/-! ## StartPty for a shell -/

/-- What the system hands out is not in use. -/
structure ShellCalls.Fresh (c : ShellCalls) (fds : FdTable PtyFile) : Prop where
  master : ∀ fd, c.posix_openpt = .ok fd → fds fd = none
  child : ∀ fd, c.child.openSlave = .ok fd → fds fd = none
  slave : ∀ fd, c.spawn.openSlave = .ok fd → fds fd = none ∧ c.posix_openpt ≠ .ok fd

theorem ShellCalls.Fresh.slave_opened {id : Int} (h : c.Fresh fds) (hopen : c.posix_openpt = .ok master_fd) :
    ∀ fd, c.spawn.openSlave = .ok fd → fds.openAt master_fd (.master id) fd = none := by
  intro fd hfd
  obtain ⟨hfree, hne⟩ := h.slave fd hfd
  rw [FdTable.openAt_of_ne, hfree]
  rintro rfl
  exact hne hopen

/-- The session for which a descriptor was opened. -/
def PtyFile.session : PtyFile → Option Int
  | .before => none
  | .master id | .socket id | .slave id => some id

/-- How `StartPty` ends: with a session on a new descriptor, or with everything as it was. In both cases
the next id is used up. -/
inductive Started (p : Native) : Int × Native → Prop
  | fails {q : Native} (fds : q.fds = p.fds) (sessions : q.globals.g_sessions = p.globals.g_sessions)
      (next_id : q.globals.g_next_session_id = p.globals.g_next_session_id + 1)
      (children : q.children = p.children) : Started p (-1, q)
  | starts {q : Native} {s : PtySession} {fd : Nat} {file : PtyFile} (free : p.fds fd = none)
      (fds : q.fds = p.fds.openAt fd file) (owner : file.session = some p.globals.g_next_session_id)
      (master_fd : s.master_fd = fd)
      (sessions : q.globals.g_sessions = (p.globals.insert p.globals.g_next_session_id s).g_sessions)
      (next_id : q.globals.g_next_session_id = p.globals.g_next_session_id + 1) :
      Started p (p.globals.g_next_session_id, q)

/-- How `StartPty` ends, with all it leaves. -/
inductive Outcome (p : Native) (profile : String) : Int × Native → Prop
  | fails {q : Native} (fds : q.fds = p.fds) (sessions : q.globals.g_sessions = p.globals.g_sessions)
      (next_id : q.globals.g_next_session_id = p.globals.g_next_session_id + 1)
      (children : q.children = p.children) (error : q.globals.g_last_pty_diag ≠ "") : Outcome p profile (-1, q)
  | starts {q : Native} {s : PtySession} {fd : Nat} {file : PtyFile} (free : p.fds fd = none)
      (fds : q.fds = p.fds.openAt fd file) (owner : file.session = some p.globals.g_next_session_id)
      (master_fd : s.master_fd = fd)
      (sessions : q.globals.g_sessions = (p.globals.insert p.globals.g_next_session_id s).g_sessions)
      (next_id : q.globals.g_next_session_id = p.globals.g_next_session_id + 1)
      (id : s.id = p.globals.g_next_session_id) (mode : s.daemon_mode = decide (profile = "daemon"))
      (child : if profile = "daemon" then s.child_pid = -1 ∧ q.children = p.children
        else ∃ pid : Nat, s.child_pid = pid ∧ pid ∉ p.children ∧ q.children = pid :: p.children) :
      Outcome p profile (p.globals.g_next_session_id, q)

theorem Outcome.toStarted {r : Int × Native} (h : Outcome p profile r) : Started p r := by
  cases h with
  | fails fds sessions next_id children _ => exact .fails fds sessions next_id children
  | starts free fds owner master_fd sessions next_id _ _ _ =>
      exact .starts free fds owner master_fd sessions next_id

theorem append_ne_empty {s : String} (h : s ≠ "") (t : String) : s ++ t ≠ "" := by
  intro hnil
  have hlen := congrArg String.length hnil
  rw [String.length_append] at hlen
  exact h (String.length_eq_zero_iff.mp (Nat.eq_zero_of_add_eq_zero_right hlen))

theorem errnoText_ne_empty {call : String} (h : call ≠ "") (e : Errno) : errnoText strerror call e ≠ "" :=
  append_ne_empty (append_ne_empty (append_ne_empty (append_ne_empty h _) _) _) _

/-- The processes that the calls start have new pids. -/
structure ShellCalls.FreshPids (c : ShellCalls) (profile : String) (children : List Nat) : Prop where
  fork : ∀ pid, c.fork = .ok pid → pid ∉ children
  spawn : ∀ argv ∈ spawnArgvs profile, ∀ pid, c.spawn.posix_spawn argv = .ok pid → pid ∉ children

theorem firstSpawned_eq_ok {f : List String → Except Errno Nat} {argvs : List (List String)} {e : Errno}
    {r : Nat × List String} (h : firstSpawned f argvs e = .ok r) : r.2 ∈ argvs ∧ f r.2 = .ok r.1 := by
  induction argvs generalizing e with
  | nil => cases h
  | cons argv argvs ih =>
      rw [firstSpawned] at h
      cases hf : f argv with
      | ok pid =>
          rw [hf] at h
          cases h
          exact ⟨List.mem_cons_self, hf⟩
      | error e' =>
          rw [hf] at h
          exact ⟨List.mem_cons_of_mem _ (ih h).1, (ih h).2⟩

theorem spawn_pid {sc : SpawnCalls} {pid : Nat}
    (h : (spawn_shell_with_pty strerror sc profile id p).1 = some pid) :
    ∃ argv ∈ spawnArgvs profile, sc.posix_spawn argv = .ok pid := by
  unfold spawn_shell_with_pty at h
  cases hopen : sc.openSlave with
  | error e => simp [hopen] at h
  | ok slave_fd =>
      cases hinit : sc.file_actions_init with
      | error e => simp [hopen, hinit] at h
      | ok u =>
          cases hspawn : firstSpawned sc.posix_spawn (spawnArgvs profile) (-1) with
          | error e => simp [hopen, hinit, hspawn] at h
          | ok r =>
              simp only [hopen, hinit, hspawn, Option.some.injEq] at h
              obtain ⟨hmem, hok⟩ := firstSpawned_eq_ok hspawn
              exact ⟨r.2, hmem, h ▸ hok⟩

theorem ShellCalls.FreshPids.startChild {children : List Nat} {pid : Nat} (h : c.FreshPids profile children)
    (hpid : (startChild strerror c profile id master_fd p).1 = some pid) : pid ∉ children := by
  unfold Terminal.startChild at hpid
  cases hfork : c.fork with
  | ok pid' =>
      rw [hfork] at hpid
      cases hpid
      exact h.fork _ hfork
  | error e =>
      rw [hfork] at hpid
      obtain ⟨argv, hmem, hok⟩ := spawn_pid hpid
      exact h.spawn argv hmem pid hok

/-- The state in which `StartPty` starts a child. -/
def Native.opened (p : Native) (master_fd : Nat) : Native :=
  { p with
    globals := { p.globals with
      g_last_pty_diag := "", g_next_session_id := p.globals.g_next_session_id + 1 }
    fds := p.fds.openAt master_fd (.master p.globals.g_next_session_id) }

theorem finishStart_outcome {r : Option Nat × Native} (hprofile : profile ≠ "daemon")
    (hmaster : p.fds master_fd = none) (hpid : ∀ pid, r.1 = some pid → pid ∉ p.children)
    (h : KeepsAll (p.opened master_fd) r) :
    Outcome p profile (finishStart c p.globals.g_next_session_id master_fd r) := by
  have hclose : r.2.fds.close master_fd = p.fds := by
    rw [h.fds]
    exact FdTable.close_openAt hmaster _
  obtain ⟨child, q⟩ := r
  obtain ⟨hfds, hsessions, hnext, hchildren⟩ := h
  cases child with
  | none =>
      simp only [finishStart]
      split
      · have herror : "no child process (fork and posix_spawn failed)" ≠ "" := by decide
        exact .fails hclose hsessions hnext hchildren herror
      · rename_i herror
        exact .fails hclose hsessions hnext hchildren herror
  | some pid =>
      simp only [finishStart]
      split
      · refine .fails hclose hsessions hnext ?_ (append_ne_empty (by decide) _)
        change q.children.erase pid = p.children
        rw [hchildren]
        exact List.erase_cons_head ..
      · let session : PtySession :=
          { id := p.globals.g_next_session_id
            master_fd
            child_pid := pid
            daemon_mode := false
            running := true }
        refine .starts (s := session) hmaster hfds rfl rfl ?_ hnext rfl (decide_eq_false hprofile).symm ?_
        · simp only [Native.diag, Globals.insert]
          rw [hsessions]
          rfl
        · rw [if_neg hprofile]
          exact ⟨pid, rfl, hpid pid rfl, hchildren⟩

theorem startPtyShell_outcome (hprofile : profile ≠ "daemon") (h : c.Fresh p.fds)
    (hpids : c.FreshPids profile p.children) : Outcome p profile (startPtyShell strerror c profile p) := by
  unfold startPtyShell
  cases hopen : c.posix_openpt with
  | error e => exact .fails rfl rfl rfl rfl (errnoText_ne_empty (by decide) e)
  | ok master_fd =>
      have hclose := FdTable.close_openAt (h.master master_fd hopen) (.master p.globals.g_next_session_id)
      cases c.grantpt with
      | error e => exact .fails hclose rfl rfl rfl (errnoText_ne_empty (by decide) e)
      | ok u =>
          cases c.unlockpt with
          | error e => exact .fails hclose rfl rfl rfl (errnoText_ne_empty (by decide) e)
          | ok u =>
              cases c.ptsname with
              | error e => exact .fails hclose rfl rfl rfl (append_ne_empty (by decide) _)
              | ok u =>
                  exact finishStart_outcome hprofile (h.master master_fd hopen)
                    (fun pid hpid => hpids.startChild hpid)
                    (startChild_keeps (p := p.opened master_fd) (h.slave_opened hopen))

theorem finishStart_shells (new_id : Int) (r : Option Nat × Native) :
    (finishStart c new_id master_fd r).2.shells = r.2.shells := by
  obtain ⟨child, q⟩ := r
  cases child <;> simp only [finishStart] <;> split <;> rfl

theorem startPtyShell_confined_iff (h : c.Fresh p.fds) :
    (∀ sh ∈ (startPtyShell strerror c profile p).2.shells, sh.Confined) ↔
      (∀ sh ∈ p.shells, sh.Confined) ∧ ∀ master_fd, c.master = some master_fd →
        (c.Forks profile → PassesNone p.fds) ∧
        ∀ slave_fd, c.Spawns profile slave_fd → PassesNone p.fds ∧ master_fd ≤ 2 ∧ 2 < slave_fd := by
  unfold startPtyShell ShellCalls.master
  cases hopen : c.posix_openpt with
  | error e =>
      cases c.grantpt <;> cases c.unlockpt <;> cases c.ptsname <;> simp [Native.diag, Except.toOption]
  | ok master_fd =>
      cases c.grantpt with
      | error e => simp [Native.diag, Native.close]
      | ok u =>
          cases c.unlockpt with
          | error e => simp [Native.diag, Native.close]
          | ok u =>
              cases c.ptsname with
              | error e => simp [Native.diag, Native.close]
              | ok u =>
                  have hslave : ∀ fd, c.spawn.openSlave = .ok fd → p.fds fd = none ∧ fd ≠ master_fd := by
                    intro fd hfd
                    obtain ⟨hfree, hne⟩ := h.slave fd hfd
                    exact ⟨hfree, fun heq => hne (heq ▸ hopen)⟩
                  simp only [finishStart_shells, Except.toOption, Option.some.injEq, forall_eq']
                  exact startChild_confined_iff (p := p.opened master_fd) rfl (h.master master_fd hopen)
                    h.child hslave

/-! ## StartPty on the daemon -/

theorem startPtyDaemon_outcome {d : DaemonCalls} (h : ∀ fd, d.socket = .ok fd → p.fds fd = none) :
    Outcome p "daemon" (startPty strerror "daemon" d c p) := by
  simp only [startPty, if_true, startPtyDaemon, daemonFds]
  cases hsock : d.socket with
  | error e => exact .fails rfl rfl rfl rfl (errnoText_ne_empty (by decide) e)
  | ok sock =>
      have hclose := FdTable.close_openAt (h sock hsock) (.socket p.globals.g_next_session_id)
      cases d.connect with
      | error e => exact .fails hclose rfl rfl rfl (errnoText_ne_empty (by decide) e)
      | ok u =>
          simp only
          split
          · exact .fails hclose rfl rfl rfl (append_ne_empty (by decide) _)
          · exact .starts (h sock hsock) rfl rfl rfl rfl rfl rfl rfl ⟨rfl, rfl⟩

end Kworker.Terminal

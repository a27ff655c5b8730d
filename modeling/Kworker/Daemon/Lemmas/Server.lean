import Kworker.Daemon.Server

/-!
# Who holds which descriptors
-/

namespace Kworker.Daemon

open Kworker.Posix Kworker.Lib

variable {before : Nat → Option Bool} {s s' : Server} {id fd n : Nat} {file : ServerFile}
  {t : FdTable ServerFile}

/-! ## Tables -/

/-- The descriptors that the daemon was started with. -/
def startTable (before : Nat → Option Bool) : FdTable ServerFile :=
  fun fd => (before fd).map (⟨.before, ·⟩)

theorem startTable_file {d : Descriptor ServerFile} (h : startTable before n = some d) : d.file = .before := by
  obtain ⟨_, _, rfl⟩ := Option.map_eq_some_iff.mp h
  rfl

/-- The session child has the slave as 0, 1 and 2, and for the rest the table of the connection process
before `forkpty`. -/
theorem forkptyChild_apply {master_fd slave_fd : Nat} (hmaster : t master_fd = none)
    (hslave : t slave_fd = none) (hne : master_fd ≠ slave_fd) (n : Nat) :
    forkptyChild master_fd slave_fd id t n = if n ≤ 2 then some ⟨.slave id, false⟩ else t n := by
  have hclosed : ((t.openAt master_fd (.master id)).openAt slave_fd (.slave id)).close master_fd =
      t.openAt slave_fd (.slave id) := by
    funext k
    by_cases hk : k = master_fd
    · rw [hk, FdTable.close_self, FdTable.openAt_of_ne hne, hmaster]
    · rw [FdTable.close_of_ne hk]
      by_cases hks : k = slave_fd
      · rw [hks, FdTable.openAt_self, FdTable.openAt_self]
      · rw [FdTable.openAt_of_ne hks, FdTable.openAt_of_ne hks, FdTable.openAt_of_ne hk]
  rw [forkptyChild, hclosed]
  exact FdTable.stdio_apply hslave n

/-! ## The invariant -/

/-- The table of a connection process when it has closed `server_fd`. -/
def connTable (before : Nat → Option Bool) (server_fd client_fd id : Nat) : FdTable ServerFile :=
  ((startTable before).close server_fd).openAt client_fd (.client id)

/-- The table of a connection process, at each of its phases. -/
structure ConnProc.Table (before : Nat → Option Bool) (s : Server) (id : Nat) (c : ConnProc) : Prop where
  free : s.main c.client_fd = none
  forked : c.phase = .forked → c.fds = s.main.openAt c.client_fd (.client id)
  waiting : c.phase = .waiting → c.fds = connTable before s.server_fd c.client_fd id
  relaying : ∀ m, c.phase = .relaying m → connTable before s.server_fd c.client_fd id m = none ∧
    c.fds = (connTable before s.server_fd c.client_fd id).openAt m (.master id)

structure SessionProc.Table (before : Nat → Option Bool) (s : Server) (id : Nat) (c : SessionProc) :
    Prop where
  low : ∀ n ≤ 2, c.fds n = some ⟨.slave id, false⟩
  high : ∀ n d, 2 < n → c.fds n = some d → connTable before s.server_fd c.client_fd id n = some d

structure Server.Inv (before : Nat → Option Bool) (s : Server) : Prop where
  main : s.main = (startTable before).openAt s.server_fd .listening
  below : ∀ id c, s.conns id = some c → id < s.accepted
  conn : ∀ id c, s.conns id = some c → c.Table before s id
  child : ∀ id c, s.children id = some c → c.Table before s id ∧
    ∃ p m, s.conns id = some p ∧ p.phase = .relaying m

theorem listen_inv (before : Nat → Option Bool) (server_fd : Nat) :
    (Server.listen before server_fd).Inv before where
  main := rfl
  below _ _ h := nomatch h
  conn _ _ h := nomatch h
  child _ _ h := nomatch h

theorem close_main (hmain : s.main = (startTable before).openAt s.server_fd .listening) {client_fd : Nat}
    (hfree : s.main client_fd = none) (id : Nat) :
    (s.main.openAt client_fd (.client id)).close s.server_fd = connTable before s.server_fd client_fd id := by
  have hne : client_fd ≠ s.server_fd := by
    rintro rfl
    rw [hmain, FdTable.openAt_self] at hfree
    cases hfree
  funext n
  unfold connTable
  by_cases hn : n = s.server_fd
  · rw [hn, FdTable.close_self, FdTable.openAt_of_ne hne.symm, FdTable.close_self]
  · rw [FdTable.close_of_ne hn]
    by_cases hc : n = client_fd
    · rw [hc, FdTable.openAt_self, FdTable.openAt_self]
    · rw [FdTable.openAt_of_ne hc, FdTable.openAt_of_ne hc, FdTable.close_of_ne hn, hmain,
        FdTable.openAt_of_ne hn]

/-! ## Steps -/

/-- What a process table does not depend on. -/
theorem ConnProc.Table.congr {c : ConnProc} (h : c.Table before s id) (hmain : s'.main = s.main)
    (hfd : s'.server_fd = s.server_fd) : c.Table before s' id :=
  ⟨hmain ▸ h.free, hmain ▸ h.forked, hfd ▸ h.waiting, hfd ▸ h.relaying⟩

theorem SessionProc.Table.congr {c : SessionProc} (h : c.Table before s id) (hfd : s'.server_fd = s.server_fd) :
    c.Table before s' id := ⟨h.low, hfd ▸ h.high⟩

/-- A change to the processes of one connection. -/
theorem Server.Inv.update (h : s.Inv before) (id : Nat) (conn : Option ConnProc) (child : Option SessionProc)
    (hconn : ∀ c, conn = some c → id < s.accepted ∧ c.Table before s id)
    (hchild : ∀ c, child = some c → c.Table before s id ∧ ∃ p m, conn = some p ∧ p.phase = .relaying m) :
    Server.Inv before { s with
      conns := Function.update s.conns id conn
      children := Function.update s.children id child } := by
  refine ⟨h.main, fun k c hk => ?_, fun k c hk => ?_, fun k c hk => ?_⟩
  · change Function.update s.conns id conn k = some c at hk
    by_cases hkid : k = id
    · subst hkid
      rw [Function.update_self] at hk
      exact (hconn c hk).1
    · rw [Function.update_of_ne hkid] at hk
      exact h.below k c hk
  · change Function.update s.conns id conn k = some c at hk
    by_cases hkid : k = id
    · subst hkid
      rw [Function.update_self] at hk
      exact (hconn c hk).2.congr rfl rfl
    · rw [Function.update_of_ne hkid] at hk
      exact (h.conn k c hk).congr rfl rfl
  · change Function.update s.children id child k = some c at hk
    change SessionProc.Table before _ k c ∧
      ∃ p m, Function.update s.conns id conn k = some p ∧ p.phase = .relaying m
    by_cases hkid : k = id
    · subst hkid
      rw [Function.update_self] at hk
      rw [Function.update_self]
      exact ⟨(hchild c hk).1.congr rfl, (hchild c hk).2⟩
    · rw [Function.update_of_ne hkid] at hk
      rw [Function.update_of_ne hkid]
      exact ⟨(h.child k c hk).1.congr rfl, (h.child k c hk).2⟩

theorem accept_inv (h : s.Inv before) {client_fd : Nat} (hfree : s.main client_fd = none) (fork : Bool) :
    Server.Inv before { s with
      main := (s.main.openAt client_fd (.client s.accepted)).close client_fd
      accepted := s.accepted + 1
      conns := if fork then Function.update s.conns s.accepted
        (some { client_fd, fds := s.main.openAt client_fd (.client s.accepted) }) else s.conns } := by
  have hmain := FdTable.close_openAt hfree (.client s.accepted)
  have hnew : s.children s.accepted = none := by
    cases hchild : s.children s.accepted with
    | none => rfl
    | some c =>
        obtain ⟨_, p, _, hp, _⟩ := h.child _ c hchild
        exact absurd (h.below _ p hp) (Nat.lt_irrefl _)
  simp only [hmain]
  refine ⟨h.main, fun k c hk => ?_, fun k c hk => ?_, fun k c hk => ?_⟩
  · dsimp only at hk
    split at hk
    · by_cases hkid : k = s.accepted
      · exact hkid ▸ Nat.lt_succ_self _
      · rw [Function.update_of_ne hkid] at hk
        exact Nat.lt_succ_of_lt (h.below k c hk)
    · exact Nat.lt_succ_of_lt (h.below k c hk)
  · dsimp only at hk
    split at hk
    · by_cases hkid : k = s.accepted
      · subst hkid
        rw [Function.update_self] at hk
        cases hk
        exact ⟨hfree, fun _ => rfl, fun hphase => (nomatch hphase), fun _ hphase => nomatch hphase⟩
      · rw [Function.update_of_ne hkid] at hk
        exact (h.conn k c hk).congr rfl rfl
    · exact (h.conn k c hk).congr rfl rfl
  · have hkid : k ≠ s.accepted := by
      rintro rfl
      rw [show s.children s.accepted = some c from hk] at hnew
      cases hnew
    obtain ⟨htable, p, m, hp, hphase⟩ := h.child k c hk
    refine ⟨htable.congr rfl, p, m, ?_, hphase⟩
    dsimp only
    split
    · rwa [Function.update_of_ne hkid]
    · exact hp

section Forkpty

variable {client_fd master_fd slave_fd : Nat}
  (hmaster : connTable before s.server_fd client_fd id master_fd = none)
  (hslave : connTable before s.server_fd client_fd id slave_fd = none) (hne : master_fd ≠ slave_fd)

include hmaster

theorem forkpty_conn (hfree : s.main client_fd = none) :
    ConnProc.Table before s id
      { client_fd, phase := .relaying master_fd,
        fds := (connTable before s.server_fd client_fd id).openAt master_fd (.master id) } where
  free := hfree
  forked h := nomatch h
  waiting h := nomatch h
  relaying m h := by
    cases h
    exact ⟨hmaster, rfl⟩

include hslave hne

theorem forkpty_child :
    SessionProc.Table before s id
      { client_fd, fds := forkptyChild master_fd slave_fd id (connTable before s.server_fd client_fd id) } where
  low n hn := by
    change forkptyChild _ _ _ _ n = _
    rw [forkptyChild_apply hmaster hslave hne, if_pos hn]
  high n d hn hd := by
    change forkptyChild _ _ _ _ n = _ at hd
    rwa [forkptyChild_apply hmaster hslave hne, if_neg (by omega)] at hd

end Forkpty

/-- `exec` opens nothing, and the slave is without `FD_CLOEXEC`. -/
theorem SessionProc.Table.exec {client_fd : Nat} {fds : FdTable ServerFile}
    (h : SessionProc.Table before s id { client_fd, fds }) :
    SessionProc.Table before s id { client_fd, shell := true, fds := fds.exec } where
  low n hn := FdTable.exec_eq_some_iff.mpr ⟨h.low n hn, rfl⟩
  high n d hn hd := h.high n d hn (FdTable.exec_eq_some_iff.mp hd).1

/-- Nothing is started for a connection before `forkpty`. -/
theorem Server.Inv.no_child (h : s.Inv before) {p : ConnProc} (hp : s.conns id = some p)
    (hphase : ∀ m, p.phase ≠ .relaying m) : s.children id = none := by
  cases hchild : s.children id with
  | none => rfl
  | some c =>
      obtain ⟨_, q, m, hq, hm⟩ := h.child id c hchild
      rw [hp] at hq
      cases hq
      exact absurd hm (hphase m)

/-- A change to a connection process that has no session child yet. -/
theorem Server.Inv.update_conn (h : s.Inv before) {p : ConnProc} (hp : s.conns id = some p)
    (hphase : ∀ m, p.phase ≠ .relaying m) {conn : Option ConnProc}
    (hconn : ∀ c, conn = some c → c.Table before s id) :
    Server.Inv before { s with conns := Function.update s.conns id conn } := by
  have hupdated := h.update id conn none
    (fun c hc => ⟨h.below id p hp, hconn c hc⟩) fun _ hc => nomatch hc
  rwa [← h.no_child hp hphase, Function.update_eq_self] at hupdated

/-- A change to the session child alone. -/
theorem Server.Inv.update_child (h : s.Inv before) {c : SessionProc} (hc : s.children id = some c)
    {child : Option SessionProc} (hchild : ∀ c, child = some c → c.Table before s id) :
    Server.Inv before { s with children := Function.update s.children id child } := by
  obtain ⟨_, p, m, hp, hphase⟩ := h.child id c hc
  have hupdated := h.update id (some p) child ?_ ?_
  · rwa [← hp, Function.update_eq_self] at hupdated
  · rintro _ ⟨⟩
    exact ⟨h.below id p hp, h.conn id p hp⟩
  · intro c' hc'
    exact ⟨hchild c' hc', p, m, rfl, hphase⟩

theorem server_step_inv {a : ServerAct} (h : s.Inv before) (hstep : server.step s a = some s') :
    s'.Inv before := by
  simp only [server] at hstep
  cases a with
  | accept client_fd fork =>
      simp only [serverStep, Option.ite_none_right_eq_some, Option.some.injEq] at hstep
      obtain ⟨hfree, rfl⟩ := hstep
      exact accept_inv h hfree fork
  | acceptFails =>
      cases hstep
      exact h
  | closeServer id =>
      simp only [serverStep] at hstep
      split at hstep
      · rename_i client_fd fds hconn
        cases hstep
        have htable := h.conn id _ hconn
        refine h.update_conn hconn (fun _ hm => nomatch hm) fun c hc => ?_
        cases hc
        have hfds : fds = s.main.openAt client_fd (.client id) := htable.forked rfl
        refine ⟨htable.free, fun hphase => (nomatch hphase), fun _ => ?_, fun _ hphase => nomatch hphase⟩
        rw [hfds]
        exact close_main h.main htable.free id
      · cases hstep
  | connect id forkpty =>
      simp only [serverStep] at hstep
      split at hstep
      · rename_i client_fd fds hconn
        have htable := h.conn id _ hconn
        have hfds : fds = connTable before s.server_fd client_fd id := htable.waiting rfl
        rw [hfds] at hstep
        split at hstep
        · cases hstep
          exact h.update_conn hconn (fun _ hm => nomatch hm) fun _ hc => nomatch hc
        · simp only [Option.ite_none_right_eq_some, Option.some.injEq] at hstep
          obtain ⟨⟨hmaster, hslave, hne⟩, rfl⟩ := hstep
          refine h.update _ _ _ ?_ ?_
          · rintro _ ⟨⟩
            exact ⟨h.below id _ hconn, forkpty_conn hmaster htable.free⟩
          · rintro _ ⟨⟩
            exact ⟨forkpty_child hmaster hslave hne, _, _, rfl, rfl⟩
      · cases hstep
  | execShell id ok =>
      simp only [serverStep] at hstep
      split at hstep
      · rename_i client_fd fds hchild
        cases hstep
        refine h.update_child hchild fun c hc => ?_
        split at hc
        · cases hc
          exact (h.child id _ hchild).1.exec
        · cases hc
      · cases hstep
  | shellExits id =>
      simp only [serverStep] at hstep
      split at hstep
      · rename_i hchild
        cases hstep
        exact h.update_child hchild fun _ hc => nomatch hc
      · cases hstep
  | endSession id =>
      simp only [serverStep] at hstep
      split at hstep
      · cases hstep
        exact h.update id none none (fun _ hc => nomatch hc) fun _ hc => nomatch hc
      · cases hstep

/-! ## What the invariant says -/

theorem fileAt_eq_some_iff : fileAt t fd = some file ↔ ∃ d, t fd = some d ∧ d.file = file :=
  Option.map_eq_some_iff

theorem connTable_file {server_fd client_fd : Nat} {d : Descriptor ServerFile}
    (h : connTable before server_fd client_fd id n = some d) :
    d.file = .before ∨ d.file = .client id ∧ n = client_fd := by
  unfold connTable at h
  by_cases hc : n = client_fd
  · rw [hc, FdTable.openAt_self] at h
    cases h
    exact Or.inr ⟨rfl, hc⟩
  · rw [FdTable.openAt_of_ne hc] at h
    by_cases hn : n = server_fd
    · rw [hn, FdTable.close_self] at h
      cases h
    · rw [FdTable.close_of_ne hn] at h
      exact Or.inl (startTable_file h)

theorem main_file (h : s.Inv before) {d : Descriptor ServerFile} (hd : s.main n = some d) :
    d.file = .before ∨ d.file = .listening := by
  rw [h.main] at hd
  by_cases hn : n = s.server_fd
  · rw [hn, FdTable.openAt_self] at hd
    cases hd
    exact Or.inr rfl
  · rw [FdTable.openAt_of_ne hn] at hd
    exact Or.inl (startTable_file hd)

theorem conn_file (h : s.Inv before) {c : ConnProc} (hc : s.conns id = some c) {d : Descriptor ServerFile}
    (hd : c.fds n = some d) :
    d.file = .before ∨ d.file = .client id ∨ d.file = .listening ∧ c.phase = .forked ∨
      d.file = .master id ∧ ∃ m, c.phase = .relaying m := by
  have htable := h.conn id c hc
  cases hphase : c.phase with
  | forked =>
      rw [htable.forked hphase] at hd
      by_cases hn : n = c.client_fd
      · rw [hn, FdTable.openAt_self] at hd
        cases hd
        exact Or.inr (Or.inl rfl)
      · rw [FdTable.openAt_of_ne hn] at hd
        rcases main_file h hd with hfile | hfile
        · exact Or.inl hfile
        · exact Or.inr (Or.inr (Or.inl ⟨hfile, rfl⟩))
  | waiting =>
      rw [htable.waiting hphase] at hd
      rcases connTable_file hd with hfile | ⟨hfile, _⟩
      · exact Or.inl hfile
      · exact Or.inr (Or.inl hfile)
  | relaying m =>
      rw [(htable.relaying m hphase).2] at hd
      by_cases hn : n = m
      · rw [hn, FdTable.openAt_self] at hd
        cases hd
        exact Or.inr (Or.inr (Or.inr ⟨rfl, m, rfl⟩))
      · rw [FdTable.openAt_of_ne hn] at hd
        rcases connTable_file hd with hfile | ⟨hfile, _⟩
        · exact Or.inl hfile
        · exact Or.inr (Or.inl hfile)

theorem child_file (h : s.Inv before) {c : SessionProc} (hc : s.children id = some c)
    {d : Descriptor ServerFile} (hd : c.fds n = some d) :
    if n ≤ 2 then d.file = .slave id else d.file = .before ∨ d.file = .client id ∧ n = c.client_fd := by
  obtain ⟨htable, _⟩ := h.child id c hc
  split
  · rename_i hn
    rw [htable.low n hn] at hd
    cases hd
    rfl
  · rename_i hn
    exact connTable_file (htable.high n d (by omega) hd)

/-- The socket of a connection process is open, whatever has happened since. -/
theorem conn_client (h : s.Inv before) {c : ConnProc} (hc : s.conns id = some c) :
    fileAt c.fds c.client_fd = some (.client id) := by
  have htable := h.conn id c hc
  rw [fileAt_eq_some_iff]
  cases hphase : c.phase with
  | forked =>
      rw [htable.forked hphase, FdTable.openAt_self]
      exact ⟨_, rfl, rfl⟩
  | waiting =>
      rw [htable.waiting hphase, connTable, FdTable.openAt_self]
      exact ⟨_, rfl, rfl⟩
  | relaying m =>
      obtain ⟨hfree, hfds⟩ := htable.relaying m hphase
      have hne : c.client_fd ≠ m := by
        rintro rfl
        rw [connTable, FdTable.openAt_self] at hfree
        cases hfree
      rw [hfds, FdTable.openAt_of_ne hne, connTable, FdTable.openAt_self]
      exact ⟨_, rfl, rfl⟩

theorem conn_master (h : s.Inv before) {c : ConnProc} (hc : s.conns id = some c) {m : Nat}
    (hm : c.phase = .relaying m) : fileAt c.fds m = some (.master id) := by
  rw [fileAt_eq_some_iff, ((h.conn id c hc).relaying m hm).2, FdTable.openAt_self]
  exact ⟨_, rfl, rfl⟩

theorem child_slave (h : s.Inv before) {c : SessionProc} (hc : s.children id = some c) {fd : Nat}
    (hfd : fd ≤ 2) : fileAt c.fds fd = some (.slave id) := by
  rw [fileAt_eq_some_iff]
  exact ⟨_, (h.child id c hc).1.low fd hfd, rfl⟩

/-- What is neither there from the start nor listened on is held for one connection. -/
theorem holds_cases (h : s.Inv before) (hholds : s.Holds file) :
    file = .before ∨ file = .listening ∨
      (∃ id c, s.conns id = some c ∧ (file = .client id ∨ file = .master id ∧ ∃ m, c.phase = .relaying m)) ∨
      ∃ id c, s.children id = some c ∧ file = .slave id := by
  cases hholds with
  | main hfd =>
      obtain ⟨d, hd, rfl⟩ := fileAt_eq_some_iff.mp hfd
      exact (main_file h hd).imp_right Or.inl
  | @conn id fd c hc hfd =>
      obtain ⟨d, hd, rfl⟩ := fileAt_eq_some_iff.mp hfd
      rcases conn_file h hc hd with hfile | hfile | ⟨hfile, _⟩ | hfile
      · exact Or.inl hfile
      · exact Or.inr (Or.inr (Or.inl ⟨id, c, hc, Or.inl hfile⟩))
      · exact Or.inr (Or.inl hfile)
      · exact Or.inr (Or.inr (Or.inl ⟨id, c, hc, Or.inr hfile⟩))
  | @child id fd c hc hfd =>
      obtain ⟨d, hd, rfl⟩ := fileAt_eq_some_iff.mp hfd
      obtain ⟨_, p, _, hp, _⟩ := h.child id c hc
      have hfile := child_file h hc hd
      split at hfile
      · exact Or.inr (Or.inr (Or.inr ⟨id, c, hc, hfile⟩))
      · rcases hfile with hfile | ⟨hfile, _⟩
        · exact Or.inl hfile
        · exact Or.inr (Or.inr (Or.inl ⟨id, p, hp, Or.inl hfile⟩))

theorem isolated_of_inv (h : s.Inv before) : s.Isolated before where
  main := h.main
  conn id c hc hforked fd file hfd := by
    obtain ⟨d, hd, rfl⟩ := fileAt_eq_some_iff.mp hfd
    rcases conn_file h hc hd with hfile | hfile | ⟨_, hphase⟩ | ⟨hfile, _⟩
    · exact Or.inl hfile
    · exact Or.inr (Or.inl hfile)
    · exact absurd hphase hforked
    · exact Or.inr (Or.inr hfile)
  child id c hc fd file hfd := by
    obtain ⟨d, hd, rfl⟩ := fileAt_eq_some_iff.mp hfd
    exact child_file h hc hd
  stdio id c hc fd hfd := child_slave h hc hfd
  sockets id := by
    constructor
    · intro hholds
      rcases holds_cases h hholds with hfile | hfile | ⟨k, c, hc, hfile | ⟨hfile, _⟩⟩ | ⟨k, c, _, hfile⟩ <;>
        cases hfile
      rw [hc]
      rfl
    · intro hsome
      obtain ⟨c, hc⟩ := Option.isSome_iff_exists.mp hsome
      exact .conn hc (conn_client h hc)
  masters id := by
    constructor
    · intro hholds
      rcases holds_cases h hholds with hfile | hfile | ⟨k, c, hc, hfile | ⟨hfile, m, hm⟩⟩ | ⟨k, c, _, hfile⟩ <;>
        cases hfile
      exact ⟨c, m, hc, hm⟩
    · rintro ⟨c, m, hc, hm⟩
      exact .conn hc (conn_master h hc hm)
  slaves id := by
    constructor
    · intro hholds
      rcases holds_cases h hholds with hfile | hfile | ⟨k, c, hc, hfile | ⟨hfile, _⟩⟩ | ⟨k, c, hc, hfile⟩ <;>
        cases hfile
      rw [hc]
      rfl
    · intro hsome
      obtain ⟨c, hc⟩ := Option.isSome_iff_exists.mp hsome
      exact .child hc (child_slave h hc (Nat.zero_le 2))

end Kworker.Daemon

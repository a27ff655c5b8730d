import Kworker.Terminal.Lemmas.Pty
import Mathlib.Data.List.Nodup

/-!
# The sessions of the native module over a whole run
-/

namespace Kworker.Terminal

open Kworker.Posix Kworker.Lib

variable {strerror : Errno → String} {p q : Native} {a : NativeAct}

/-! ## The invariant -/

/-- The live sessions and the open descriptors: each session has one, which is not closed by `exec`, and
there are no others but those from before. -/
structure Native.Inv (p : Native) : Prop where
  keys : (p.globals.g_sessions.map (·.1)).Nodup
  below : ∀ e ∈ p.globals.g_sessions, 1 ≤ e.1 ∧ e.1 < p.globals.g_next_session_id
  next_id : 1 ≤ p.globals.g_next_session_id
  live : ∀ e ∈ p.globals.g_sessions, ∃ fd : Nat, e.2.master_fd = fd ∧
    ∃ file : PtyFile, p.fds fd = some ⟨file, false⟩ ∧ file.session = some e.1
  owned : ∀ fd d id, p.fds fd = some d → d.file.session = some id →
    ∃ e ∈ p.globals.g_sessions, e.1 = id ∧ e.2.master_fd = fd

theorem session_eq_none {file : PtyFile} : file.session = none ↔ file = .before := by
  cases file <;> simp [PtyFile.session]

theorem Native.Inv.passesNone_iff (h : p.Inv) : PassesNone p.fds ↔ p.NoneAbove := by
  constructor
  · intro hnone e he
    obtain ⟨fd, hfd, file, hopen, hfile⟩ := h.live e he
    rw [hfd]
    by_contra hlt
    rw [session_eq_none.mpr (hnone fd ⟨file, false⟩ (by omega) hopen rfl)] at hfile
    cases hfile
  · intro hnone fd d hfd hopen _
    cases hfile : d.file.session with
    | none => exact session_eq_none.mp hfile
    | some id =>
        obtain ⟨e, he, _, hmaster⟩ := h.owned fd d id hopen hfile
        have := hnone e he
        omega

/-! ## StartPty -/

theorem insert_sessions {g : Globals} {id : Int} {s : PtySession} (h : ∀ e ∈ g.g_sessions, e.1 < id) :
    (g.insert id s).g_sessions = (id, s) :: g.g_sessions := by
  simp only [Globals.insert, List.cons.injEq, true_and, List.filter_eq_self, decide_not, Bool.not_eq_true',
    decide_eq_false_iff_not]
  intro e he
  exact Int.ne_of_lt (h e he)

/-- The same sessions and descriptors, and at most more ids used up. -/
theorem Native.Inv.congr (hp : p.Inv) (hfds : q.fds = p.fds)
    (hsessions : q.globals.g_sessions = p.globals.g_sessions)
    (hnext : p.globals.g_next_session_id ≤ q.globals.g_next_session_id) : q.Inv where
  keys := by
    rw [hsessions]
    exact hp.keys
  below e he := by
    rw [hsessions] at he
    have := hp.below e he
    omega
  next_id := Int.le_trans hp.next_id hnext
  live := by
    rw [hsessions, hfds]
    exact hp.live
  owned := by
    rw [hsessions, hfds]
    exact hp.owned

theorem Started.next_id {r : Int × Native} (h : Started p r) :
    r.2.globals.g_next_session_id = p.globals.g_next_session_id + 1 := by
  cases h with
  | fails _ _ hnext _ => exact hnext
  | starts _ _ _ _ _ hnext => exact hnext

theorem Started.inv {r : Int × Native} (h : Started p r) (hp : p.Inv) : r.2.Inv := by
  cases h with
  | fails hfds hsessions hnext _ => exact hp.congr hfds hsessions (by rw [hnext]; omega)
  | @starts q s fd file hfree hfds howner hmaster hsessions hnext =>
      rw [insert_sessions fun e he => (hp.below e he).2] at hsessions
      have hkept : ∀ {n : Nat} {d : Descriptor PtyFile}, p.fds n = some d → q.fds n = some d := by
        intro n d hd
        rw [hfds, FdTable.openAt_of_ne, hd]
        rintro rfl
        rw [hfree] at hd
        cases hd
      refine ⟨?_, ?_, ?_, ?_, ?_⟩
      · rw [hsessions, List.map_cons, List.nodup_cons]
        refine ⟨?_, hp.keys⟩
        intro hmem
        obtain ⟨e, he, heq⟩ := List.mem_map.mp hmem
        have := (hp.below e he).2
        omega
      · intro e he
        rw [hsessions] at he
        rw [hnext]
        rcases List.mem_cons.mp he with rfl | hold
        · exact ⟨hp.next_id, Int.lt_succ _⟩
        · have := hp.below e hold
          omega
      · rw [hnext]
        have := hp.next_id
        omega
      · intro e he
        rw [hsessions] at he
        rcases List.mem_cons.mp he with rfl | hold
        · exact ⟨fd, hmaster, file, by rw [hfds, FdTable.openAt_self], howner⟩
        · obtain ⟨n, hn, file', hopen, hfile⟩ := hp.live e hold
          exact ⟨n, hn, file', hkept hopen, hfile⟩
      · intro n d id hopen hfile
        rw [hsessions]
        rw [hfds] at hopen
        by_cases hn : n = fd
        · rw [hn, FdTable.openAt_self, Option.some.injEq] at hopen
          rw [← hopen, howner, Option.some.injEq] at hfile
          exact ⟨_, List.mem_cons_self, hfile, by rw [hn, hmaster]⟩
        · rw [FdTable.openAt_of_ne hn] at hopen
          obtain ⟨e, he, hid, hfd⟩ := hp.owned n d id hopen hfile
          exact ⟨e, List.mem_cons_of_mem _ he, hid, hfd⟩

/-! ## StopPty -/

theorem findSession_eq_some {g : Globals} {id : Int} {s : PtySession} (h : findSession g id = some s) :
    (id, s) ∈ g.g_sessions := by
  simp only [findSession, Option.map_eq_some_iff] at h
  obtain ⟨⟨id', s'⟩, hfind, rfl⟩ := h
  have hid := List.find?_some hfind
  simp only [decide_eq_true_eq] at hid
  rw [← hid]
  exact List.mem_of_find?_eq_some hfind

theorem findSession_eq_none {g : Globals} {id : Int} (h : findSession g id = none) :
    ∀ e ∈ g.g_sessions, e.1 ≠ id := by
  simp only [findSession, Option.map_eq_none_iff, List.find?_eq_none, decide_eq_true_eq] at h
  exact h

/-- What stopping a session leaves of the process. -/
structure StopsSession (p : Native) (id : Int) (q : Native) : Prop where
  sessions : q.globals.g_sessions = p.globals.g_sessions.filter (·.1 ≠ id)
  next_id : q.globals.g_next_session_id = p.globals.g_next_session_id
  shells : q.shells = p.shells
  fds : q.fds = p.fds ∧ (∀ e ∈ p.globals.g_sessions, e.1 ≠ id) ∨
    ∃ (s : PtySession) (fd : Nat), (id, s) ∈ p.globals.g_sessions ∧ s.master_fd = fd ∧
      q.fds = p.fds.close fd

theorem stopSession_stops (hp : p.Inv) (id : Int) : StopsSession p id (stopSession p id) := by
  unfold stopSession
  cases hfind : findSession p.globals id with
  | none =>
      have hnone := findSession_eq_none hfind
      refine ⟨?_, rfl, rfl, Or.inl ⟨rfl, hnone⟩⟩
      exact (List.filter_eq_self.mpr fun e he => by simpa using hnone e he).symm
  | some s =>
      have hmem := findSession_eq_some hfind
      obtain ⟨fd, hfd, _⟩ := hp.live _ hmem
      simp only at hfd
      have hclosed : ∀ q : Native, (if s.master_fd ≥ 0 then q.close s.master_fd.toNat else q) = q.close fd := by
        intro q
        rw [hfd, if_pos (Int.natCast_nonneg fd), Int.toNat_natCast]
      simp only [destroy_session_locked, hclosed]
      split
      · exact ⟨rfl, rfl, rfl, Or.inr ⟨s, fd, hmem, hfd, rfl⟩⟩
      · exact ⟨rfl, rfl, rfl, Or.inr ⟨s, fd, hmem, hfd, rfl⟩⟩

/-- The descriptor that is closed is the one of the session. -/
theorem StopsSession.fds_iff {id id' : Int} {n : Nat} {d : Descriptor PtyFile} (h : StopsSession p id q)
    (hp : p.Inv) (hfile : d.file.session = some id') :
    q.fds n = some d ↔ p.fds n = some d ∧ id' ≠ id := by
  rcases h.fds with ⟨hsame, hnone⟩ | ⟨s, fd, hs, hfd, hclose⟩
  · rw [hsame]
    refine ⟨fun hopen => ⟨hopen, ?_⟩, fun h => h.1⟩
    obtain ⟨e, he, hid, _⟩ := hp.owned n d id' hopen hfile
    rw [← hid]
    exact hnone e he
  · obtain ⟨fd', hfd', file, hopen', hfile'⟩ := hp.live _ hs
    obtain rfl : fd = fd' := Int.ofNat_inj.mp (hfd.symm.trans hfd')
    rw [hclose]
    by_cases hn : n = fd
    · rw [hn, FdTable.close_self, hopen']
      refine iff_of_false (by simp) ?_
      rintro ⟨hd, hne⟩
      rw [Option.some.injEq] at hd
      rw [← hd, hfile', Option.some.injEq] at hfile
      exact hne hfile.symm
    · rw [FdTable.close_of_ne hn]
      refine ⟨fun hopen => ⟨hopen, ?_⟩, fun h => h.1⟩
      rintro rfl
      obtain ⟨e, he, hid, hmaster⟩ := hp.owned n d _ hopen hfile
      have heq : e = (id', s) := List.inj_on_of_nodup_map hp.keys he hs hid
      rw [heq] at hmaster
      exact hn (Int.ofNat_inj.mp (hmaster.symm.trans hfd))

theorem StopsSession.inv {id : Int} (h : StopsSession p id q) (hp : p.Inv) : q.Inv := by
  have hsessions := h.sessions
  have hnext := h.next_id
  have hmem : ∀ e, e ∈ q.globals.g_sessions ↔ e ∈ p.globals.g_sessions ∧ e.1 ≠ id := by
    intro e
    rw [hsessions, List.mem_filter, decide_eq_true_eq]
  refine ⟨?_, ?_, ?_, ?_, ?_⟩
  · rw [hsessions]
    exact (List.filter_sublist.map _).nodup hp.keys
  · intro e he
    rw [hnext]
    exact hp.below e ((hmem e).mp he).1
  · rw [hnext]
    exact hp.next_id
  · intro e he
    obtain ⟨hold, hne⟩ := (hmem e).mp he
    obtain ⟨fd, hfd, file, hopen, hfile⟩ := hp.live e hold
    exact ⟨fd, hfd, file, (h.fds_iff hp hfile).mpr ⟨hopen, hne⟩, hfile⟩
  · intro n d id' hopen hfile
    obtain ⟨hopen, hne⟩ := (h.fds_iff hp hfile).mp hopen
    obtain ⟨e, he, hid, hfd⟩ := hp.owned n d id' hopen hfile
    exact ⟨e, (hmem e).mpr ⟨he, hid ▸ hne⟩, hid, hfd⟩

/-- What holds after stopping any session also holds after stopping all of them. -/
theorem stopPty_induction {P : Native → Prop} (h : P p) (hp : p.Inv)
    (hstep : ∀ p q id, p.Inv → StopsSession p id q → P p → P q) (session_id : Option Int) :
    P (stopPty session_id p) ∧ (stopPty session_id p).Inv := by
  have hone : ∀ p id, p.Inv → P p → P (stopSession p id) ∧ (stopSession p id).Inv := by
    intro p id hp h
    exact ⟨hstep p _ id hp (stopSession_stops hp id) h, (stopSession_stops hp id).inv hp⟩
  have hmany : ∀ (ids : List Int) (p : Native), p.Inv → P p →
      P (ids.foldl stopSession p) ∧ (ids.foldl stopSession p).Inv := by
    intro ids
    induction ids with
    | nil => exact fun p hp h => ⟨h, hp⟩
    | cons id ids ih => exact fun p hp h => ih _ (hone p id hp h).2 (hone p id hp h).1
  unfold stopPty
  cases session_id with
  | none => exact hmany _ p hp h
  | some id =>
      simp only
      split
      · exact hmany _ p hp h
      · exact hone p id hp h

/-! ## Steps -/

theorem fresh_of_allowed {profile : String} {d : DaemonCalls} {c : ShellCalls}
    (h : (NativeAct.startPty profile d c).allowed p = true) (hprofile : profile ≠ "daemon") :
    c.Fresh p.fds := by
  simp only [NativeAct.allowed, hprofile, if_false, Bool.and_eq_true] at h
  obtain ⟨⟨⟨⟨hmaster, hchild⟩, hslave⟩, _⟩, _⟩ := h
  refine ⟨fun fd hfd => ?_, fun fd hfd => ?_, fun fd hfd => ?_⟩
  · simpa [hfd, Except.toOption] using hmaster
  · simpa [hfd, Except.toOption] using hchild
  · simp only [hfd, Except.toOption, Option.all_some, Bool.and_eq_true, Option.isNone_iff_eq_none] at hslave
    refine ⟨hslave.1, fun hopen => of_decide_eq_true hslave.2 ?_⟩
    rw [hopen]

theorem freshPids_of_allowed {profile : String} {d : DaemonCalls} {c : ShellCalls}
    (h : (NativeAct.startPty profile d c).allowed p = true) (hprofile : profile ≠ "daemon") :
    c.FreshPids profile p.children := by
  simp only [NativeAct.allowed, hprofile, if_false, Bool.and_eq_true, List.all_eq_true] at h
  obtain ⟨⟨_, hfork⟩, hspawn⟩ := h
  refine ⟨fun pid hpid => ?_, fun argv hargv pid hpid => ?_⟩
  · simp only [hpid, Except.toOption, Option.all_some, Bool.and_eq_true] at hfork
    exact of_decide_eq_true hfork.2
  · have hfresh := hspawn argv hargv
    simp only [hpid, Except.toOption, Option.all_some, Bool.and_eq_true] at hfresh
    exact of_decide_eq_true hfresh.2

theorem startPty_outcome (strerror : Errno → String) {profile : String} {d : DaemonCalls} {c : ShellCalls}
    (h : (NativeAct.startPty profile d c).allowed p = true) :
    Outcome p profile (startPty strerror profile d c p) := by
  by_cases hprofile : profile = "daemon"
  · subst hprofile
    apply startPtyDaemon_outcome
    intro fd hfd
    simpa [NativeAct.allowed, hfd, Except.toOption] using h
  · rw [startPty, if_neg hprofile]
    exact startPtyShell_outcome hprofile (fresh_of_allowed h hprofile) (freshPids_of_allowed h hprofile)

theorem startPty_started (strerror : Errno → String) {profile : String} {d : DaemonCalls} {c : ShellCalls}
    (h : (NativeAct.startPty profile d c).allowed p = true) : Started p (startPty strerror profile d c p) :=
  (startPty_outcome strerror h).toStarted

theorem nativeStep_cases (h : nativeStep strerror p a = some q) :
    (∃ profile d c, a = .startPty profile d c ∧ a.allowed p = true ∧ q = (startPty strerror profile d c p).2) ∨
    ∃ session_id, a = .stopPty session_id ∧ q = stopPty session_id p := by
  unfold nativeStep at h
  split at h
  · rename_i hallowed
    cases a with
    | startPty profile d c =>
        cases h
        exact Or.inl ⟨profile, d, c, rfl, hallowed, rfl⟩
    | stopPty session_id =>
        cases h
        exact Or.inr ⟨session_id, rfl, rfl⟩
  · cases h

theorem nativeStep_inv (hp : p.Inv) (h : nativeStep strerror p a = some q) : q.Inv := by
  rcases nativeStep_cases h with ⟨profile, d, c, rfl, hallowed, rfl⟩ | ⟨session_id, rfl, rfl⟩
  · exact (startPty_started strerror hallowed).inv hp
  · exact (stopPty_induction (P := fun _ => True) trivial hp (fun _ _ _ _ _ _ => trivial) session_id).2

theorem nativeStep_next_id (hp : p.Inv) (h : nativeStep strerror p a = some q) :
    p.globals.g_next_session_id ≤ q.globals.g_next_session_id := by
  rcases nativeStep_cases h with ⟨profile, d, c, rfl, hallowed, rfl⟩ | ⟨session_id, rfl, rfl⟩
  · have hnext := (startPty_started strerror hallowed).next_id
    omega
  · refine (stopPty_induction (P := fun q => p.globals.g_next_session_id ≤ q.globals.g_next_session_id)
      (Int.le_refl _) hp ?_ session_id).1
    intro q q' _ _ hstop hle
    rw [hstop.next_id]
    exact hle

theorem Outcome.startsWhole {profile : String} {r : Int × Native} (h : Outcome p profile r) (hp : p.Inv) :
    p.StartsWhole profile r := by
  cases h with
  | fails hfds hsessions _ hchildren herror =>
      exact ⟨fun _ => ⟨hfds, hchildren, hsessions, herror⟩, fun h => absurd rfl h⟩
  | starts hfree hfds _ hmaster hsessions _ hid hmode hchild =>
      have hpos := hp.next_id
      refine ⟨fun h => ?_, fun _ => ⟨hpos, _, hid, ?_⟩⟩
      · omega
      · rw [insert_sessions fun e he => (hp.below e he).2, ← hid] at hsessions
        exact ⟨hsessions, hmode, ⟨_, _, hmaster, hfree, hfds⟩, hchild⟩

/-- A returned id is above the ids of all sessions that there were in the run. -/
theorem Outcome.fresh {profile : String} {r : Int × Native} {s : Native} {acts : List NativeAct}
    (h : Outcome p profile r) (hs : s.Inv) (hrun : (native strerror).run s acts = some p) (hid : r.1 ≠ -1) :
    (native strerror).Always (fun t => ∀ e ∈ t.globals.g_sessions, e.1 < r.1) s acts := by
  have hnext : r.1 = p.globals.g_next_session_id := by
    cases h with
    | fails _ _ _ _ _ => exact absurd rfl hid
    | starts _ _ _ _ _ _ _ _ _ => rfl
  rintro pre t ⟨post, rfl⟩ hpre e he
  rw [Machine.run_append, hpre, Option.bind_some] at hrun
  have ht : t.Inv := (native strerror).run_invariant (fun _ _ _ hp h => nativeStep_inv hp h) hs hpre
  have hle : t.globals.g_next_session_id ≤ p.globals.g_next_session_id :=
    ((native strerror).run_invariant
      (I := fun q => q.Inv ∧ t.globals.g_next_session_id ≤ q.globals.g_next_session_id)
      (fun _ _ _ hq h => ⟨nativeStep_inv hq.1 h, Int.le_trans hq.2 (nativeStep_next_id hq.1 h)⟩)
      ⟨ht, Int.le_refl _⟩ hrun).2
  have := (ht.below e he).2
  omega

theorem startPty_confined_iff {profile : String} {d : DaemonCalls} {c : ShellCalls} (hp : p.Inv)
    (h : (NativeAct.startPty profile d c).allowed p = true) (hshells : ∀ sh ∈ p.shells, sh.Confined) :
    (∀ sh ∈ (startPty strerror profile d c p).2.shells, sh.Confined) ↔
      StartsConfined p (.startPty profile d c) := by
  by_cases hprofile : profile = "daemon"
  · subst hprofile
    exact iff_of_true hshells fun hne => absurd rfl hne
  · rw [startPty, if_neg hprofile, startPtyShell_confined_iff (fresh_of_allowed h hprofile), hp.passesNone_iff]
    exact ⟨fun hiff _ => hiff.2, fun hsafe => ⟨hshells, hsafe hprofile⟩⟩

theorem nativeStep_confined_iff (hp : p.Inv) (hshells : ∀ sh ∈ p.shells, sh.Confined)
    (h : nativeStep strerror p a = some q) : (∀ sh ∈ q.shells, sh.Confined) ↔ StartsConfined p a := by
  rcases nativeStep_cases h with ⟨profile, d, c, rfl, hallowed, rfl⟩ | ⟨session_id, rfl, rfl⟩
  · exact startPty_confined_iff hp hallowed hshells
  · refine iff_of_true ?_ trivial
    refine (stopPty_induction (P := fun p => ∀ sh ∈ p.shells, sh.Confined) hshells hp ?_ session_id).1
    intro p q id _ hstop hall
    rw [hstop.shells]
    exact hall

theorem initial_inv (before : Nat → Option Bool) : (Native.initial before).Inv := by
  refine ⟨List.nodup_nil, ?_, Int.le_refl 1, ?_, ?_⟩
  · intro e he
    cases he
  · intro e he
    cases he
  · intro fd d id hopen hfile
    simp only [Native.initial, Option.map_eq_some_iff] at hopen
    obtain ⟨cloexec, _, rfl⟩ := hopen
    cases hfile

end Kworker.Terminal

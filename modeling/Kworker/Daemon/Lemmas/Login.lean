import Kworker.Daemon.Lemmas.Session
import Mathlib.Data.List.TakeWhile

/-!
# Whom the session child logs in
-/

namespace Kworker.Daemon

open Kworker.Posix

variable {c : ChildCalls} {p : Proc} {name stored : List UInt8}

/-! ## The name that is read -/

theorem cString_take_eq_self_iff (n : Nat) : (cString name).take n = name ↔ name.length ≤ n ∧ 0 ∉ name := by
  constructor
  · intro h
    constructor
    · rw [← h]
      exact List.length_take_le _ _
    · intro hzero
      rw [← h] at hzero
      exact absurd (List.mem_takeWhile_imp (List.mem_of_mem_take hzero)) (by decide)
  · rintro ⟨hlength, hzero⟩
    have hall : cString name = name := by
      rw [cString, List.takeWhile_eq_self_iff]
      intro b hb
      rw [decide_eq_true_iff]
      rintro rfl
      exact hzero hb
    rw [hall, List.take_of_length_le hlength]

/-- What `fgets` leaves behind the first LF does not count. -/
theorem takeWhile_fgets {q : UInt8 → Bool} (hq : q 10 = false) (content : List UInt8) :
    let line := content.takeWhile (· ≠ 10)
    (if line.length < content.length then line ++ [10] else line).takeWhile q = content.takeWhile q := by
  intro line
  have hline : line.takeWhile q = content.takeWhile q := by
    rw [List.takeWhile_takeWhile]
    congr
    funext b
    by_cases hb : b = 10
    · simp [hb, hq]
    · simp [hb]
  split
  · rw [List.takeWhile_append]
    split
    · rename_i hwhole
      rw [List.takeWhile_cons_of_neg (by simp [hq]), List.append_nil, ← hline]
      exact ((List.takeWhile_prefix q).eq_of_length hwhole).symm
    · exact hline
  · exact hline

theorem cString_takeWhile_comm (q : UInt8 → Bool) (bs : List UInt8) :
    (cString bs).takeWhile q = cString (bs.takeWhile q) := by
  rw [cString, cString, List.takeWhile_takeWhile, List.takeWhile_takeWhile]
  congr
  funext b
  exact decide_eq_decide.mpr and_comm

/-- A name is cut at its first 0 and after 255 bytes. -/
theorem defaultUser_some (h : findUbuntu c = true) {content : List UInt8} (hne : content ≠ [])
    (hfile : c.defaultUserFile = some content) :
    defaultUser c = (cString (storedName (some content))).take 255 := by
  simp only [defaultUser, h, if_true, hfile, fgets, if_neg hne]
  rw [cString_takeWhile_comm, ← List.take_takeWhile, takeWhile_fgets (by decide), cString, ← List.take_takeWhile]
  rfl

theorem defaultUser_eq_iff (h : findUbuntu c = true) :
    defaultUser c = storedName c.defaultUserFile ↔ NameFits c.defaultUserFile := by
  cases hfile : c.defaultUserFile with
  | none =>
      simp only [defaultUser, h, if_true, hfile]
      exact iff_of_true rfl (by decide)
  | some content =>
      by_cases hne : content = []
      · subst hne
        simp only [defaultUser, h, if_true, hfile]
        exact iff_of_false (by decide) (by decide)
      · rw [defaultUser_some h hne hfile, cString_take_eq_self_iff, NameFits]
        simp [hne]

/-! ## The programs -/

theorem mem_login {prog : String × List Arg} (h : prog ∈ login name) :
    name = [] ∧ prog.2 = [.text "bash", .text "-c", .initScript] ∨
      name = rootName ∧ (∃ sh, prog.2 = [.text sh, .text "-l"]) ∨
      name ≠ [] ∧ name ≠ rootName ∧ prog.2 = [.text "su", .text "-", .user name] := by
  unfold login at h
  split at h
  · rename_i hname
    refine Or.inl ⟨hname, ?_⟩
    simp only [List.mem_cons, List.not_mem_nil, or_false] at h
    rcases h with rfl | rfl
    · rfl
    · rfl
  · rename_i hname
    split at h
    · rename_i hroot
      refine Or.inr (Or.inr ⟨hname, hroot, ?_⟩)
      simp only [List.mem_cons, List.not_mem_nil, or_false] at h
      rcases h with rfl | rfl
      · rfl
      · rfl
    · rename_i hroot
      refine Or.inr (Or.inl ⟨not_not.mp hroot, ?_⟩)
      simp only [List.mem_cons, List.not_mem_nil, or_false] at h
      rcases h with rfl | rfl | rfl | rfl
      · exact ⟨_, rfl⟩
      · exact ⟨_, rfl⟩
      · exact ⟨_, rfl⟩
      · exact ⟨_, rfl⟩

/-- The programs for a name do what the stored one asks for only if it is the same. -/
theorem logsIn_login_iff {prog : String × List Arg} (h : prog ∈ login name) :
    LogsIn stored prog.2 ↔ name = stored := by
  have hne : rootName ≠ [] := by decide
  constructor
  · intro hlogs
    rcases mem_login h with ⟨rfl, hargv⟩ | ⟨rfl, _, hargv⟩ | ⟨_, _, hargv⟩
    · exact (hlogs.initScript.mp (by simp [hargv])).symm
    · exact (hlogs.loginShell.mp (by simp [hargv])).symm
    · exact ((hlogs.su name).mp (by simp [hargv])).1
  · rintro rfl
    rcases mem_login h with ⟨rfl, hargv⟩ | ⟨rfl, _, hargv⟩ | ⟨hname, hroot, hargv⟩
    · constructor <;> simp [hargv, hne.symm]
    · constructor <;> simp [hargv, hne]
    · constructor <;> simp [hargv, hname, hroot]

/-- The program that the name needs is tried in both directories. -/
theorem login_tries (name : List UInt8) {dir : String} (hdir : dir ∈ ["/bin/", "/usr/bin/"]) :
    ∃ prog ∈ login name, prog.1 = dir ++ loginProgram name := by
  simp only [List.mem_cons, List.not_mem_nil, or_false] at hdir
  unfold login loginProgram
  by_cases hnil : name = []
  · rw [if_pos hnil, if_pos (Or.inl hnil)]
    rcases hdir with rfl | rfl
    · exact ⟨_, List.mem_cons_self, by decide⟩
    · exact ⟨_, List.mem_cons_of_mem _ List.mem_cons_self, by decide⟩
  rw [if_neg hnil]
  by_cases hroot : name = rootName
  · have hshell : ¬ (name ≠ [0x72, 0x6f, 0x6f, 0x74]) := not_not.mpr hroot
    rw [if_neg hshell, if_pos (Or.inr hroot)]
    rcases hdir with rfl | rfl
    · exact ⟨_, List.mem_cons_self, by decide⟩
    · exact ⟨_, List.mem_cons_of_mem _ List.mem_cons_self, by decide⟩
  · have hsu : name ≠ [0x72, 0x6f, 0x6f, 0x74] := hroot
    rw [if_pos hsu, if_neg (not_or.mpr ⟨hnil, hroot⟩)]
    rcases hdir with rfl | rfl
    · exact ⟨_, List.mem_cons_self, (by decide : "/bin/su" = "/bin/" ++ "su")⟩
    · exact ⟨_, List.mem_cons_of_mem _ List.mem_cons_self, (by decide : "/usr/bin/su" = "/usr/bin/" ++ "su")⟩

/-- In the Ubuntu root the child tries the programs for the name it has read. -/
theorem sessionChild_ubuntu (h : useUbuntu c = true) (p : Proc) : ∃ q : Proc,
    q.root = .rootfs ∧ (sessionChild c p).2 = execFirst c q (login (defaultUser c)) := by
  obtain ⟨hfind, hchroot⟩ := Bool.and_eq_true_iff.mp h
  have hroot : (enterUbuntu c p).2.root = .rootfs := by simp [enterUbuntu, hchroot]
  simp only [sessionChild, h, hfind, if_true]
  exact ⟨_, by simp only [Proc.setenv_root, hroot], rfl⟩

theorem sessionChild_logsIn (h : useUbuntu c = true) (hname : defaultUser c = stored) (p : Proc) :
    (sessionChild c p).2.LogsIn c stored := by
  obtain ⟨q, hroot, hout⟩ := sessionChild_ubuntu h p
  rw [hout]
  rcases execFirst_cases c q (login (defaultUser c)) with ⟨prog, hmem, _, hexec⟩ | ⟨hnone, hexit⟩
  · rw [hexec]
    exact ⟨hroot, (logsIn_login_iff hmem).mpr hname⟩
  · rw [hexit]
    intro dir hdir
    obtain ⟨prog, hmem, hpath⟩ := login_tries (defaultUser c) hdir
    have hfails := hnone prog hmem
    rwa [hroot, hpath, hname] at hfails

end Kworker.Daemon

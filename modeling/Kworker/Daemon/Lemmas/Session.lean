import Kworker.Daemon.Session

/-!
# What the session child executes on the host
-/

namespace Kworker.Daemon

open Kworker.Posix

/-! ## The path -/

theorem findUbuntu_eq_true {c : ChildCalls} : findUbuntu c = true ↔
    c.rootfsIsDir = some true ∧ ∃ path ∈ rootfsShells, c.executable path = true := by
  simp [findUbuntu]

theorem useUbuntu_eq_false {c : ChildCalls} : useUbuntu c = false ↔ c.HostPath := by
  rw [← Bool.not_eq_true, useUbuntu, Bool.and_eq_true, findUbuntu_eq_true, ChildCalls.HostPath]
  by_cases hdir : c.rootfsIsDir = some true
  · by_cases hsh : ∃ path ∈ rootfsShells, c.executable path = true
    · obtain ⟨path, hmem, hx⟩ := hsh
      have hex : ∃ path ∈ rootfsShells, c.executable path = true := ⟨path, hmem, hx⟩
      have hall : ¬ ∀ path ∈ rootfsShells, c.executable path = false := by
        intro h
        rw [h path hmem] at hx
        cases hx
      simp only [hdir, hex, hall, ne_eq, not_true, true_and, false_or, Bool.not_eq_true]
    · have hall : ∀ path ∈ rootfsShells, c.executable path = false := by
        intro path hmem
        apply Bool.eq_false_iff.mpr
        intro hx
        exact hsh ⟨path, hmem, hx⟩
      exact iff_of_true (fun h => hsh h.1.2) (Or.inr (Or.inl hall))
  · exact iff_of_true (fun h => hdir h.1.1) (Or.inl hdir)

/-! ## The credentials -/

/-- Once `setuid` has succeeded nothing can take the supplementary groups away. -/
theorem dropPrivileges_groups (c : ChildCalls) (cred : Cred) :
    (dropPrivileges c cred).groups = cred.groups := by
  unfold dropPrivileges
  cases hg : setgid c.setgidOk shellId cred with
  | none => rfl
  | some cred₁ =>
      obtain ⟨hgroups₁, _⟩ := setgid_eq_some hg
      simp only
      cases hu : setuid c.setuidOk shellId cred₁ with
      | none => exact hgroups₁
      | some cred₂ =>
          obtain ⟨heuid, hgroups₂, _⟩ := setuid_eq_some hu
          have hpriv : cred₂.privileged = false := by simp [Cred.privileged, heuid, shellId]
          simp only [setgroups_eq_none hpriv, Option.getD_none]
          rw [hgroups₂, hgroups₁]

theorem dropPrivileges_not_confined (c : ChildCalls) (gidOf : String → Nat) :
    ¬ (dropPrivileges c (serviceCred gidOf)).Are shellId shellId [] := by
  intro h
  have hgroups := dropPrivileges_groups c (serviceCred gidOf)
  rw [h] at hgroups
  cases hgroups

/-! ## The shell -/

@[simp] theorem Proc.setenv_cred (p : Proc) (n v : String) : (p.setenv n v).cred = p.cred := rfl

@[simp] theorem Proc.setenv_root (p : Proc) (n v : String) : (p.setenv n v).root = p.root := rfl

@[simp] theorem child_set_prompt_cred (c : ChildCalls) (p : Proc) :
    (child_set_prompt c p).cred = p.cred := rfl

@[simp] theorem child_set_prompt_root (c : ChildCalls) (p : Proc) :
    (child_set_prompt c p).root = p.root := rfl

/-- The first program that can be executed is, and the child ends where there is none. -/
theorem execFirst_cases (c : ChildCalls) (p : Proc) (progs : List (String × List Arg)) :
    (∃ prog ∈ progs, c.execOk p.root prog.1 = true ∧ execFirst c p progs = .exec prog.1 prog.2 p) ∨
      (∀ prog ∈ progs, c.execOk p.root prog.1 = false) ∧ execFirst c p progs = .exit 127 := by
  induction progs with
  | nil => exact Or.inr ⟨nofun, rfl⟩
  | cons prog progs ih =>
      obtain ⟨path, argv⟩ := prog
      rw [execFirst, List.forall_mem_cons]
      cases hok : c.execOk p.root path with
      | true => exact Or.inl ⟨_, List.mem_cons_self, hok, rfl⟩
      | false =>
          rcases ih with ⟨prog, hmem, hprog, hexec⟩ | ⟨hnone, hexit⟩
          · exact Or.inl ⟨prog, List.mem_cons_of_mem _ hmem, hprog, hexec⟩
          · exact Or.inr ⟨⟨rfl, hnone⟩, hexit⟩

/-- Trying programs in turn with credentials that are not those of the shell is as it should be
exactly if none of them can be executed. -/
theorem execFirst_confined {c : ChildCalls} {p : Proc} (hp : ¬ p.cred.Are shellId shellId [])
    (progs : List (String × List Arg)) :
    (execFirst c p progs).Confined ↔ ∀ prog ∈ progs, c.execOk p.root prog.1 = false := by
  rcases execFirst_cases c p progs with ⟨prog, hmem, hok, hexec⟩ | ⟨hnone, hexit⟩
  · rw [hexec]
    refine iff_of_false hp fun h => ?_
    rw [h prog hmem] at hok
    cases hok
  · rw [hexit]
    exact iff_of_true trivial hnone

theorem enterUbuntu_root {c : ChildCalls} {p : Proc} (h : c.chrootOk = false) :
    (enterUbuntu c p).2 = p := by
  simp [enterUbuntu, h]

/-- On the host the child tries the two shells with what is left of its credentials. -/
theorem sessionChild_host {c : ChildCalls} (h : c.HostPath) (p : Proc) : ∃ q : Proc,
    q.cred = dropPrivileges c p.cred ∧ q.root = p.root ∧
      (sessionChild c p).2 = execFirst c q hostShell := by
  have huse := useUbuntu_eq_false.mpr h
  have hp : (if findUbuntu c then enterUbuntu c p else ([], p)).2 = p := by
    split
    · rename_i hfind
      apply enterUbuntu_root
      simpa [useUbuntu, hfind] using huse
    · rfl
  simp only [sessionChild, huse, hp, Bool.false_eq_true, if_false]
  exact ⟨_, by simp only [child_set_prompt_cred, Proc.setenv_cred],
    by simp only [child_set_prompt_root, Proc.setenv_root], rfl⟩

end Kworker.Daemon

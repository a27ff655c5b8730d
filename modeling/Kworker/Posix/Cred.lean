import Mathlib.Init

/-!
# Credentials of a process

The user and group ids that a process carries, and the calls that change them. A call that POSIX
allows may still fail; `ok` says whether the system lets it through.
-/

namespace Kworker.Posix

structure Cred where
  ruid : Nat
  euid : Nat
  suid : Nat
  rgid : Nat
  egid : Nat
  sgid : Nat
  groups : List Nat
  deriving DecidableEq, Repr

def Cred.privileged (c : Cred) : Bool := c.euid = 0

/-- All three user ids, all three group ids and the supplementary groups are the given ones. -/
def Cred.Are (c : Cred) (uid gid : Nat) (groups : List Nat) : Prop :=
  c = { ruid := uid, euid := uid, suid := uid, rgid := gid, egid := gid, sgid := gid, groups }

instance (c : Cred) (uid gid : Nat) (groups : List Nat) : Decidable (c.Are uid gid groups) :=
  inferInstanceAs (Decidable (_ = _))

def setuid (ok : Bool) (uid : Nat) (c : Cred) : Option Cred :=
  if ok = false then none
  else if c.privileged then some { c with ruid := uid, euid := uid, suid := uid }
  else if uid = c.ruid ∨ uid = c.suid then some { c with euid := uid }
  else none

def setgid (ok : Bool) (gid : Nat) (c : Cred) : Option Cred :=
  if ok = false then none
  else if c.privileged then some { c with rgid := gid, egid := gid, sgid := gid }
  else if gid = c.rgid ∨ gid = c.sgid then some { c with egid := gid }
  else none

/-- `setgroups`, and `initgroups` with the groups of the user and the given group. -/
def setgroups (ok : Bool) (groups : List Nat) (c : Cred) : Option Cred :=
  if ok = true ∧ c.privileged then some { c with groups } else none

section

variable {ok : Bool} {id : Nat} {gs : List Nat} {c c' : Cred}

theorem setuid_eq_some (h : setuid ok id c = some c') :
    c'.euid = id ∧ c'.groups = c.groups ∧ c'.rgid = c.rgid ∧ c'.egid = c.egid ∧
      c'.sgid = c.sgid := by
  unfold setuid at h
  split at h
  · cases h
  · split at h
    · cases h
      simp
    · split at h
      · cases h
        simp
      · cases h

theorem setgid_eq_some (h : setgid ok id c = some c') :
    c'.groups = c.groups ∧ c'.ruid = c.ruid ∧ c'.euid = c.euid ∧ c'.suid = c.suid := by
  unfold setgid at h
  split at h
  · cases h
  · split at h
    · cases h
      simp
    · split at h
      · cases h
        simp
      · cases h

theorem setgroups_eq_none (h : c.privileged = false) : setgroups ok gs c = none := by
  simp [setgroups, h]

end

end Kworker.Posix

import Mathlib.Logic.Function.Basic

/-!
# Descriptor tables

What `open`, `close`, `dup2` and `exec` do to the table of a process; `fork` copies it. `φ` is what the
descriptors refer to.
-/

namespace Kworker.Posix

structure Descriptor (φ : Type) where
  file : φ
  /-- `FD_CLOEXEC` -/
  cloexec : Bool
  deriving DecidableEq, Repr

abbrev FdTable (φ : Type) := Nat → Option (Descriptor φ)

namespace FdTable

variable {φ : Type} (t : FdTable φ)

/-- A call without `O_CLOEXEC` that returns `fd`. -/
def openAt (fd : Nat) (file : φ) : FdTable φ := Function.update t fd (some ⟨file, false⟩)

def close (fd : Nat) : FdTable φ := Function.update t fd none

def dup2 (fd fd' : Nat) : FdTable φ :=
  match t fd with
  | none => t
  | some d => if fd = fd' then t else Function.update t fd' (some ⟨d.file, false⟩)

/-- `fd` as standard input, output and error output. -/
def dup2Stdio (fd : Nat) : FdTable φ := ((t.dup2 fd 0).dup2 fd 1).dup2 fd 2

def exec : FdTable φ := fun fd => (t fd).filter (!·.cloexec)

variable {t} {fd n : Nat} {file : φ}

@[simp] theorem openAt_self : t.openAt fd file fd = some ⟨file, false⟩ := Function.update_self ..

@[simp] theorem openAt_of_ne (h : n ≠ fd) : t.openAt fd file n = t n := Function.update_of_ne h ..

@[simp] theorem close_self : t.close fd fd = none := Function.update_self ..

@[simp] theorem close_of_ne (h : n ≠ fd) : t.close fd n = t n := Function.update_of_ne h ..

theorem close_openAt (h : t fd = none) (file : φ) : (t.openAt fd file).close fd = t := by
  funext n
  by_cases hn : n = fd
  · rw [hn, close_self, h]
  · rw [close_of_ne hn, openAt_of_ne hn]

theorem dup2_apply (h : t fd = some ⟨file, false⟩) (fd' n : Nat) :
    t.dup2 fd fd' n = if n = fd' then some ⟨file, false⟩ else t n := by
  simp only [dup2, h]
  split
  · rename_i heq
    split
    · rename_i hn
      rw [hn, ← heq, h]
    · rfl
  · exact Function.update_apply ..

theorem dup2Stdio_apply (h : t fd = some ⟨file, false⟩) (n : Nat) :
    t.dup2Stdio fd n = if n ≤ 2 then some ⟨file, false⟩ else t n := by
  have h0 : t.dup2 fd 0 fd = some ⟨file, false⟩ := by
    rw [dup2_apply h, h, ite_self]
  have h1 : (t.dup2 fd 0).dup2 fd 1 fd = some ⟨file, false⟩ := by
    rw [dup2_apply h0, h0, ite_self]
  rw [dup2Stdio, dup2_apply h1, dup2_apply h0, dup2_apply h]
  rcases (by omega : n = 0 ∨ n = 1 ∨ n = 2 ∨ 2 < n) with rfl | rfl | rfl | hn
  · rfl
  · rfl
  · rfl
  · rw [if_neg (by omega), if_neg (by omega), if_neg (by omega), if_neg (by omega)]

/-- A new descriptor as standard input and outputs, when its own number is closed unless it is one of
these. -/
theorem stdio_apply (h : t fd = none) (n : Nat) :
    (if fd > 2 then ((t.openAt fd file).dup2Stdio fd).close fd else (t.openAt fd file).dup2Stdio fd) n =
      if n ≤ 2 then some ⟨file, false⟩ else t n := by
  by_cases hfd : fd > 2
  · rw [if_pos hfd]
    by_cases hn : n = fd
    · rw [hn, close_self, if_neg (by omega), h]
    · rw [close_of_ne hn, dup2Stdio_apply openAt_self, openAt_of_ne hn]
  · rw [if_neg hfd, dup2Stdio_apply openAt_self]
    by_cases hn : n ≤ 2
    · rw [if_pos hn, if_pos hn]
    · rw [if_neg hn, if_neg hn, openAt_of_ne (by omega)]

/-- The same, when its own number is closed in any case. -/
theorem stdio_close_apply (n : Nat) :
    ((t.openAt fd file).dup2Stdio fd).close fd n =
      if n = fd then none else if n ≤ 2 then some ⟨file, false⟩ else t n := by
  by_cases hn : n = fd
  · rw [hn, close_self, if_pos rfl]
  · rw [close_of_ne hn, dup2Stdio_apply openAt_self, openAt_of_ne hn, if_neg hn]

theorem exec_eq_some_iff {d : Descriptor φ} : t.exec n = some d ↔ t n = some d ∧ d.cloexec = false := by
  rw [exec, Option.filter_eq_some_iff, Bool.not_eq_true']

end FdTable

end Kworker.Posix

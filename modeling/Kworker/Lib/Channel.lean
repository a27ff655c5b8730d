import Mathlib.Data.List.Infix

/-!
# Streams between two parties

A channel hands on what is put into it, in order and in pieces of any size. It carries what was sent, what
was taken out and what is on its way, and that these three fit.
-/

namespace Kworker.Lib

universe u

structure Channel (α : Type u) where
  sent : List α
  taken : List α
  inFlight : List α
  split : sent = taken ++ inFlight

namespace Channel

variable {α : Type u}

def empty : Channel α := ⟨[], [], [], rfl⟩

def send (c : Channel α) (xs : List α) : Channel α where
  sent := c.sent ++ xs
  taken := c.taken
  inFlight := c.inFlight ++ xs
  split := by rw [c.split, List.append_assoc]

/-- The first `n` are taken out, or as many as there are. -/
def take (c : Channel α) (n : Nat) : Channel α where
  sent := c.sent
  taken := c.taken ++ c.inFlight.take n
  inFlight := c.inFlight.drop n
  split := by rw [List.append_assoc, List.take_append_drop, c.split]

variable (c : Channel α) (xs : List α) (n : Nat)

@[simp] theorem empty_sent : (empty : Channel α).sent = [] := rfl

@[simp] theorem empty_taken : (empty : Channel α).taken = [] := rfl

@[simp] theorem send_sent : (c.send xs).sent = c.sent ++ xs := rfl

@[simp] theorem send_taken : (c.send xs).taken = c.taken := rfl

@[simp] theorem send_inFlight : (c.send xs).inFlight = c.inFlight ++ xs := rfl

@[simp] theorem take_sent : (c.take n).sent = c.sent := rfl

theorem take_taken_eq : (c.take n).taken = c.taken ++ c.inFlight.take n := rfl

@[simp] theorem take_inFlight : (c.take n).inFlight = c.inFlight.drop n := rfl

variable {c xs}

/-- What the receiver has read is what it took out. -/
theorem take_taken (h : xs <+: c.inFlight) : (c.take xs.length).taken = c.taken ++ xs :=
  congrArg (c.taken ++ ·) (List.prefix_iff_eq_take.mp h).symm

theorem taken_prefix : c.taken <+: c.sent := ⟨c.inFlight, c.split.symm⟩

end Channel

end Kworker.Lib

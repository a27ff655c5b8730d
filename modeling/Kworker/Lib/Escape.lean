import Mathlib.Data.List.Forall2

/-!
# Escaped texts

A reader takes one unit after the other off the front of a text until it comes to an end mark. A text that
is written unit by unit, each in a way that the reader takes for this unit whatever comes behind it, is
read back as a whole.
-/

namespace Kworker.Lib

universe u v

/-- `stop` takes the end mark off, and `next` one unit. -/
structure EscapeReader (α : Type u) (β : Type v) where
  stop : List β → Option (List β)
  next : List β → Option (α × List β)

namespace EscapeReader

variable {α : Type u} {β : Type v} (r : EscapeReader α β)

/-- The units up to the end mark, at most `fuel` of them, and what comes behind it. -/
def readFuel : Nat → List β → Option (List α × List β)
  | 0, t => (r.stop t).map fun rest => ([], rest)
  | fuel + 1, t =>
      match r.stop t with
      | some rest => some ([], rest)
      | none => (r.next t).bind fun (a, t) => (readFuel fuel t).map fun (as, rest) => (a :: as, rest)

def read (t : List β) : Option (List α × List β) := r.readFuel t.length t

/-- `w` is a way to write `a`. -/
def Writes (a : α) (w : List β) : Prop := ∀ t, r.stop (w ++ t) = none ∧ r.next (w ++ t) = some (a, t)

variable {r} {as : List α} {ws : List (List β)} {t rest : List β} {fuel : Nat}

theorem Writes.ne_nil {a : α} {w : List β} (h : r.Writes a w) (hstop : r.stop t = some rest) : w ≠ [] := by
  rintro rfl
  have hnone := (h t).1
  rw [List.nil_append, hstop] at hnone
  cases hnone

theorem readFuel_flatten (h : List.Forall₂ r.Writes as ws) (hstop : r.stop t = some rest)
    (hfuel : as.length ≤ fuel) : r.readFuel fuel (ws.flatten ++ t) = some (as, rest) := by
  induction h generalizing fuel with
  | nil =>
      rw [List.flatten_nil, List.nil_append]
      cases fuel with
      | zero => rw [readFuel, hstop]; rfl
      | succ fuel => rw [readFuel, hstop]
  | @cons a w as ws hw _ ih =>
      cases fuel with
      | zero => cases hfuel
      | succ fuel =>
          obtain ⟨hnone, hnext⟩ := hw (ws.flatten ++ t)
          rw [List.flatten_cons, List.append_assoc, readFuel, hnone, hnext]
          dsimp only [Option.bind_some]
          rw [ih (Nat.le_of_succ_le_succ hfuel)]
          rfl

theorem length_le_flatten (h : List.Forall₂ r.Writes as ws) (hstop : r.stop t = some rest) :
    as.length ≤ ws.flatten.length := by
  induction h with
  | nil => exact Nat.zero_le _
  | @cons a w as ws hw _ ih =>
      have hpos := List.length_pos_iff.mpr (hw.ne_nil hstop)
      rw [List.length_cons, List.flatten_cons, List.length_append]
      omega

theorem read_flatten (h : List.Forall₂ r.Writes as ws) (hstop : r.stop t = some rest) :
    r.read (ws.flatten ++ t) = some (as, rest) := by
  refine readFuel_flatten h hstop (Nat.le_trans (length_le_flatten h hstop) ?_)
  rw [List.length_append]
  exact Nat.le_add_right _ _

/-- Each unit is written in the same way wherever it stands. -/
theorem read_flatMap {write : α → List β} (h : ∀ a ∈ as, r.Writes a (write a)) (hstop : r.stop t = some rest) :
    r.read (as.flatMap write ++ t) = some (as, rest) := by
  rw [List.flatMap_def]
  refine read_flatten ?_ hstop
  rw [List.forall₂_map_right_iff, List.forall₂_same]
  exact h

end EscapeReader

end Kworker.Lib

import Mathlib.Order.MinMax
import Mathlib.Algebra.Order.Group.Int

/-!
# Loops that count up
-/

namespace Kworker.Lib

universe u

variable {σ : Type u} {lo hi : Int} {body : Int → σ → σ} {s : σ}

/-- `n` turns, the first one with `i`. -/
def turns (body : Int → σ → σ) : Nat → Int → σ → σ
  | 0, _, s => s
  | n + 1, i, s => turns body n (i + 1) (body i s)

/-- `for (i = lo; i < hi; i++)` -/
def loopUp (lo hi : Int) (body : Int → σ → σ) (s : σ) : σ := turns body (hi - lo).toNat lo s

theorem loopUp_nil (h : hi ≤ lo) : loopUp lo hi body s = s := by
  have hnone : (hi - lo).toNat = 0 := by omega
  rw [loopUp, hnone, turns]

theorem turns_invariant {I : Int → σ → Prop} (n : Nat) {i : Int} (hi : I i s)
    (hstep : ∀ j s, i ≤ j → j < i + n → I j s → I (j + 1) (body j s)) : I (i + n) (turns body n i s) := by
  induction n generalizing i s with
  | zero => simpa [turns] using hi
  | succ n ih =>
      have hnext := ih (hstep i s le_rfl (by omega) hi) fun j s hle hlt => hstep j s (by omega) (by omega)
      have hend : i + 1 + (n : Int) = i + (n + 1 : Nat) := by omega
      rwa [hend] at hnext

/-- The rule of the loop: `I i` holds before the turn with `i`. -/
theorem loopUp_invariant {I : Int → σ → Prop} (hle : lo ≤ hi) (hlo : I lo s)
    (hstep : ∀ i s, lo ≤ i → i < hi → I i s → I (i + 1) (body i s)) : I hi (loopUp lo hi body s) := by
  have hcount : lo + ((hi - lo).toNat : Int) = hi := by omega
  have hend := turns_invariant (I := I) (hi - lo).toNat hlo fun j s hle hlt => hstep j s hle (by omega)
  rwa [hcount] at hend

end Kworker.Lib

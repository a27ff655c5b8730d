import Kworker.Lib.Loop

/-!
# Cells laid out in a memory

A layout places cells of one size, such as the pixels of a screen, in a memory of bytes. What a program
draws is a picture, which says for each cell what is written to it, if anything. `Draws` relates two
memories by a picture, and its rules follow the program: a single cell, one picture after another, and a
loop.
-/

namespace Kworker.Lib

universe u v w

/-- Where the cells `i` with `On i` are, and the bytes of what can be in a cell. -/
structure Layout (ι : Type u) (V : Type v) (B : Type w) where
  On : ι → Prop
  addr : ι → Int
  size : Int
  byte : V → Int → B
  disjoint : ∀ i j k l, On i → On j → 0 ≤ k → k < size → 0 ≤ l → l < size →
    addr i + k = addr j + l → i = j

/-- `size` bytes are written at `a`. -/
def writeBytes {B : Type w} (size : Int) (byte : Int → B) (a : Int) (m : Int → B) : Int → B :=
  fun b => if a ≤ b ∧ b < a + size then byte (b - a) else m b

namespace Layout

variable {ι : Type u} {V : Type v} {B : Type w} (L : Layout ι V B)

/-- From `m` to `m'` the cells of `p` are written and nothing else. -/
structure Draws (p : ι → Option V) (m m' : Int → B) : Prop where
  cells : ∀ i k, L.On i → 0 ≤ k → k < L.size →
    m' (L.addr i + k) = (p i).elim (m (L.addr i + k)) fun v => L.byte v k
  frame : ∀ a, (∀ i, L.On i → ¬(L.addr i ≤ a ∧ a < L.addr i + L.size)) → m' a = m a

variable {L} {p q : ι → Option V} {m m' m'' : Int → B}

theorem draws_nothing (h : ∀ i, L.On i → p i = none) : L.Draws p m m where
  cells i k hi _ _ := by rw [h i hi, Option.elim_none]
  frame _ _ := rfl

/-- Only the cells that are there count. -/
theorem Draws.congr (h : L.Draws p m m') (hpq : ∀ i, L.On i → p i = q i) : L.Draws q m m' where
  cells i k hi h0 hk := by rw [← hpq i hi, h.cells i k hi h0 hk]
  frame := h.frame

theorem Draws.trans (h : L.Draws p m m') (h' : L.Draws q m' m'') :
    L.Draws (fun i => (q i).or (p i)) m m'' where
  cells i k hi h0 hk := by
    rw [h'.cells i k hi h0 hk, h.cells i k hi h0 hk]
    cases q i with
    | none => rfl
    | some v => rfl
  frame a ha := by rw [h'.frame a ha, h.frame a ha]

theorem draws_cell [DecidableEq ι] {i : ι} (hi : L.On i) (v : V) :
    L.Draws (fun j => if j = i then some v else none) m (writeBytes L.size (L.byte v) (L.addr i) m) where
  cells j k hj h0 hk := by
    by_cases hji : j = i
    · subst hji
      have hin : L.addr j ≤ L.addr j + k ∧ L.addr j + k < L.addr j + L.size := by omega
      rw [writeBytes, if_pos hin, if_pos rfl, add_sub_cancel_left, Option.elim_some]
    · have hout : ¬(L.addr i ≤ L.addr j + k ∧ L.addr j + k < L.addr i + L.size) := by
        rintro ⟨hle, hlt⟩
        exact hji (L.disjoint j i k (L.addr j + k - L.addr i) hj hi h0 hk (by omega) (by omega) (by omega))
      rw [writeBytes, if_neg hout, if_neg hji, Option.elim_none]
  frame a ha := by rw [writeBytes, if_neg (ha i hi)]

/-- A turn that writes nothing. -/
theorem draws_skip (h : ∀ i, L.On i → p i = q i) :
    ∃ r, L.Draws r m m ∧ ∀ i, L.On i → (r i).or (p i) = q i :=
  ⟨fun _ => none, draws_nothing fun _ _ => rfl, h⟩

/-- A loop, of which `P i` is the picture before the turn with `i`. -/
theorem draws_loopUp {lo hi : Int} {body : Int → (Int → B) → Int → B} {P : Int → ι → Option V}
    (hle : lo ≤ hi) (hlo : ∀ j, L.On j → P lo j = none)
    (hstep : ∀ i m, lo ≤ i → i < hi →
      ∃ q, L.Draws q m (body i m) ∧ ∀ j, L.On j → (q j).or (P i j) = P (i + 1) j) :
    L.Draws (P hi) m (loopUp lo hi body m) := by
  apply loopUp_invariant (I := fun i m' => L.Draws (P i) m m') hle (draws_nothing hlo)
  intro i m' hlo hhi hdrawn
  obtain ⟨q, hq, hnext⟩ := hstep i m' hlo hhi
  exact (hdrawn.trans hq).congr hnext

end Layout

end Kworker.Lib

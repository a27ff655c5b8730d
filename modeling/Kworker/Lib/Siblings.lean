import Mathlib.Data.List.Nodup

/-!
# The children of a node, in order

`nextSibling` and `insertBefore` on the list of the children, and what the same positions are in an
array that is searched by index.
-/

namespace Kworker.Lib

universe u v

variable {α : Type u} [DecidableEq α]

def nextSibling (a : α) : List α → Option α
  | [] => none
  | b :: l => if b = a then l.head? else nextSibling a l

/-- `new` goes before the child `ref`. -/
def insertBefore (new ref : α) : List α → List α
  | [] => [new]
  | b :: l => if b = ref then new :: b :: l else b :: insertBefore new ref l

theorem nextSibling_append {a : α} {xs : List α} (h : a ∉ xs) (ys : List α) :
    nextSibling a (xs ++ a :: ys) = ys.head? := by
  induction xs with
  | nil => simp [nextSibling]
  | cons x xs ih =>
      rw [List.mem_cons, not_or] at h
      rw [List.cons_append, nextSibling, if_neg (Ne.symm h.1), ih h.2]

theorem insertBefore_append (new : α) {ref : α} {xs : List α} (h : ref ∉ xs) (ys : List α) :
    insertBefore new ref (xs ++ ref :: ys) = xs ++ new :: ref :: ys := by
  induction xs with
  | nil => simp [insertBefore]
  | cons x xs ih =>
      rw [List.mem_cons, not_or] at h
      rw [List.cons_append, insertBefore, if_neg (Ne.symm h.1), ih h.2, List.cons_append]

/-- Inserting before the next sibling, or at the end if there is none, is inserting after. -/
theorem insert_after (new : α) {a : α} {xs ys : List α} (h : (xs ++ a :: ys).Nodup) :
    (match nextSibling a (xs ++ a :: ys) with
      | some ref => insertBefore new ref (xs ++ a :: ys)
      | none => (xs ++ a :: ys) ++ [new]) = xs ++ a :: new :: ys := by
  have ha : a ∉ xs := fun hmem => (List.disjoint_of_nodup_append h) hmem List.mem_cons_self
  rw [nextSibling_append ha]
  cases ys with
  | nil => simp
  | cons y ys =>
      have hy : y ∉ xs ++ [a] := by
        have hsplit : (xs ++ [a] ++ y :: ys).Nodup := by simpa using h
        exact fun hmem => List.disjoint_of_nodup_append hsplit hmem List.mem_cons_self
      have hins := insertBefore_append new hy ys
      simpa using hins

/-! ## What is left without an element -/

/-- When the elements are told apart by `f`, taking one out leaves the others. -/
theorem mem_rest_iff {β : Type u} {γ : Type v} {f : β → γ} {xs ys : List β} {a b : β}
    (h : ((xs ++ a :: ys).map f).Nodup) : b ∈ xs ++ ys ↔ b ∈ xs ++ a :: ys ∧ f b ≠ f a := by
  rw [List.map_append, List.map_cons, List.nodup_middle, List.nodup_cons, ← List.map_append] at h
  constructor
  · intro hb
    have hsub : (xs ++ ys).Sublist (xs ++ a :: ys) := List.Sublist.append_left (List.sublist_cons_self a ys) xs
    exact ⟨hsub.subset hb, fun heq => h.1 (heq ▸ List.mem_map_of_mem hb)⟩
  · rintro ⟨hb, hne⟩
    rcases List.mem_append.mp hb with hx | hy
    · exact List.mem_append_left _ hx
    rcases List.mem_cons.mp hy with rfl | hy
    · exact absurd rfl hne
    · exact List.mem_append_right _ hy

/-! ## Positions -/

section

variable {β : Type u} {p : β → Bool} {xs ys : List β} {a b : β}

theorem findIdx?_cases (p : β → Bool) (l : List β) :
    (l.findIdx? p = none ∧ ∀ x ∈ l, p x = false) ∨
    ∃ xs a ys, l = xs ++ a :: ys ∧ p a = true ∧ (∀ x ∈ xs, p x = false) ∧ l.findIdx? p = some xs.length := by
  induction l with
  | nil => exact Or.inl ⟨rfl, by simp⟩
  | cons b l ih =>
      rw [List.findIdx?_cons]
      cases hb : p b with
      | true => exact Or.inr ⟨[], b, l, rfl, hb, by simp, by simp⟩
      | false =>
          rcases ih with ⟨hnone, hall⟩ | ⟨xs, a, ys, rfl, ha, hxs, hidx⟩
          · refine Or.inl ⟨by simp [hnone], ?_⟩
            intro x hx
            rcases List.mem_cons.mp hx with rfl | hx
            · exact hb
            · exact hall x hx
          · refine Or.inr ⟨b :: xs, a, ys, rfl, ha, ?_, by simp [hidx]⟩
            intro x hx
            rcases List.mem_cons.mp hx with rfl | hx
            · exact hb
            · exact hxs x hx

theorem findIdx?_append_cons (ha : p a = true) (hxs : ∀ x ∈ xs, p x = false) :
    (xs ++ a :: ys).findIdx? p = some xs.length := by
  induction xs with
  | nil => simp [List.findIdx?_cons, ha]
  | cons x xs ih =>
      rw [List.cons_append, List.findIdx?_cons, hxs x List.mem_cons_self,
        ih fun y hy => hxs y (List.mem_cons_of_mem x hy)]
      rfl

theorem insertIdx_after : (xs ++ a :: ys).insertIdx (xs.length + 1) b = xs ++ a :: b :: ys := by
  induction xs with
  | nil => rfl
  | cons x xs ih => rw [List.cons_append, List.length_cons, List.insertIdx_succ_cons, ih, List.cons_append]

theorem eraseIdx_at : (xs ++ a :: ys).eraseIdx xs.length = xs ++ ys := by
  rw [List.eraseIdx_append_of_length_le (Nat.le_refl _), Nat.sub_self, List.eraseIdx_cons_zero]

end

end Kworker.Lib

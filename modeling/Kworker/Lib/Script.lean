import Mathlib.Init

/-!
# Scripts of inputs

A system that takes the entries of a list one after the other, and may end before the last of them,
is a `foldlM` in `Except`. `Everywhere` states a condition on every entry and what comes before it.
-/

namespace Kworker.Lib

universe u v w

variable {α : Type u} {β : Type v} {σ : Type w} {ε : Type w}

theorem foldlM_flatMap (f : σ → β → Except ε σ) (g : α → List β) (as : List α) (s : σ) :
    (as.flatMap g).foldlM f s = as.foldlM (fun s a => (g a).foldlM f s) s := by
  induction as generalizing s with
  | nil => rfl
  | cons a as ih =>
      rw [List.flatMap_cons, List.foldlM_append, List.foldlM_cons]
      cases (g a).foldlM f s with
      | error e => rfl
      | ok s' => exact ih s'

/-- `Q` holds of every entry of the list and the entries before it. -/
def Everywhere (Q : List α → α → Prop) (as : List α) : Prop :=
  ∀ pre a post, as = pre ++ a :: post → Q pre a

variable {Q : List α → α → Prop}

theorem everywhere_nil : Everywhere Q [] := by
  intro pre a post h
  simp at h

theorem everywhere_cons {a : α} {as : List α} :
    Everywhere Q (a :: as) ↔ Q [] a ∧ Everywhere (fun pre b => Q (a :: pre) b) as := by
  constructor
  · intro h
    refine ⟨h [] a as rfl, fun pre b post hsplit => ?_⟩
    exact h (a :: pre) b post (by rw [hsplit, List.cons_append])
  · rintro ⟨h0, h⟩ pre b post hsplit
    cases pre with
    | nil =>
        cases hsplit
        exact h0
    | cons c pre =>
        rw [List.cons_append, List.cons.injEq] at hsplit
        obtain ⟨rfl, hsplit⟩ := hsplit
        exact h pre b post hsplit

theorem everywhere_congr {R : List α → α → Prop} (h : ∀ pre a, Q pre a ↔ R pre a) {as : List α} :
    Everywhere Q as ↔ Everywhere R as := by
  have : Q = R := funext fun pre => funext fun a => propext (h pre a)
  rw [this]

end Kworker.Lib

import Mathlib.Data.List.Infix

/-!
# Texts that arrive in chunks

Where a word occurs in a text that arrives in chunks, and the lines of such a text as the pieces into
which the chunks cut them.
-/

namespace Kworker.Lib

variable {α : Type}

/-! ## Words -/

/-- An occurrence of `w` begins in one chunk and ends in a later one. -/
def Straddles (w : List α) (cs : List (List α)) : Prop :=
  ∃ before after x y, cs = before ++ after ∧ w = x ++ y ∧ x ≠ [] ∧ y ≠ [] ∧
    x <:+ before.flatten ∧ y <+: after.flatten

theorem Straddles.cons {w : List α} {cs : List (List α)} (h : Straddles w cs) (c : List α) :
    Straddles w (c :: cs) := by
  obtain ⟨before, after, x, y, rfl, hw, hx, hy, hsuffix, hprefix⟩ := h
  exact ⟨c :: before, after, x, y, rfl, hw, hx, hy, hsuffix.trans (List.suffix_append ..), hprefix⟩

theorem Straddles.infix {w : List α} {cs : List (List α)} (h : Straddles w cs) : w <:+: cs.flatten := by
  obtain ⟨before, after, x, y, rfl, rfl, _, _, hsuffix, hprefix⟩ := h
  rw [List.flatten_append, List.infix_append_iff]
  exact .inr (.inr ⟨x, y, rfl, hsuffix, hprefix⟩)

theorem infix_flatten_iff {w : List α} (hw : w ≠ []) (cs : List (List α)) :
    w <:+: cs.flatten ↔ (∃ c ∈ cs, w <:+: c) ∨ Straddles w cs := by
  constructor
  · intro h
    induction cs with
    | nil => exact absurd (List.infix_nil.mp h) hw
    | cons c cs ih =>
        have hrest (h : w <:+: cs.flatten) : (∃ d ∈ c :: cs, w <:+: d) ∨ Straddles w (c :: cs) := by
          rcases ih h with ⟨d, hd, hin⟩ | hcut
          · exact .inl ⟨d, List.mem_cons_of_mem _ hd, hin⟩
          · exact .inr (hcut.cons c)
        rw [List.flatten_cons, List.infix_append_iff] at h
        rcases h with hin | hin | ⟨x, y, rfl, hsuffix, hprefix⟩
        · exact .inl ⟨c, List.mem_cons_self, hin⟩
        · exact hrest hin
        by_cases hx : x = []
        · subst hx
          exact hrest hprefix.isInfix
        by_cases hy : y = []
        · subst hy
          rw [List.append_nil]
          exact .inl ⟨c, List.mem_cons_self, hsuffix.isInfix⟩
        · exact .inr ⟨[c], cs, x, y, rfl, rfl, hx, hy, by simpa using hsuffix, hprefix⟩
  · rintro (⟨c, hc, hin⟩ | hcut)
    · exact hin.trans (List.infix_of_mem_flatten hc)
    · exact hcut.infix

/-! ## Lines -/

/-- The lines of a chunk in front of the lines behind it: the last one goes on in the first of these. -/
def glue : List (List α) → List (List (List α)) → List (List (List α))
  | [], gs => gs
  | [l], [] => [[l]]
  | [l], g :: gs => (l :: g) :: gs
  | l :: l' :: ls, gs => [l] :: glue (l' :: ls) gs

theorem exists_mem_glue {ls : List (List α)} {gs : List (List (List α))} {l : List α} :
    (∃ g ∈ glue ls gs, l ∈ g) ↔ l ∈ ls ∨ ∃ g ∈ gs, l ∈ g := by
  induction ls with
  | nil => simp [glue]
  | cons l' ls ih =>
      cases ls with
      | nil => cases gs <;> simp [glue, or_assoc]
      | cons l'' ls =>
          rw [glue, List.exists_mem_cons_iff, ih, List.mem_singleton, ← or_assoc, ← List.mem_cons]

theorem glue_cons_cons (x : α) (l : List α) (ls : List (List α)) (gs : List (List (List α))) :
    (glue ((x :: l) :: ls) gs).map List.flatten =
      ((glue (l :: ls) gs).map List.flatten).modifyHead (x :: ·) := by
  cases ls <;> cases gs <;> rfl

variable [BEq α] (sep : α)

/-- The lines of the whole text, each as the list of its pieces. -/
def pieces : List (List α) → List (List (List α))
  | [] => [[]]
  | c :: cs => glue (c.splitOn sep) (pieces cs)

variable {sep}

/-- The pieces are the lines of the chunks. -/
theorem exists_mem_pieces {cs : List (List α)} {l : List α} :
    (∃ g ∈ pieces sep cs, l ∈ g) ↔ ∃ c ∈ cs, l ∈ c.splitOn sep := by
  induction cs with
  | nil => simp [pieces]
  | cons c cs ih => rw [pieces, exists_mem_glue, ih, List.exists_mem_cons_iff]

theorem map_flatten_glue {gs : List (List (List α))} {b : List α} (hb : gs.map List.flatten = b.splitOn sep)
    (a : List α) : (glue (a.splitOn sep) gs).map List.flatten = (a ++ b).splitOn sep := by
  induction a with
  | nil =>
      cases gs with
      | nil => exact absurd hb.symm (List.splitOn_ne_nil sep b)
      | cons g gs =>
          rw [List.splitOn_nil, List.nil_append, ← hb]
          simp [glue]
  | cons x a ih =>
      rw [List.cons_append, List.splitOn_cons_eq_if_modifyHead, List.splitOn_cons_eq_if_modifyHead, ← ih]
      cases hsplit : a.splitOn sep with
      | nil => exact absurd hsplit (List.splitOn_ne_nil sep a)
      | cons l ls =>
          split
          · simp [glue]
          · exact glue_cons_cons x l ls gs

/-- Put together, the pieces are the lines of the text. -/
theorem map_flatten_pieces (cs : List (List α)) :
    (pieces sep cs).map List.flatten = cs.flatten.splitOn sep := by
  induction cs with
  | nil => simp [pieces]
  | cons c cs ih => exact map_flatten_glue ih c

end Kworker.Lib

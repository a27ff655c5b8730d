import Mathlib.Data.List.Infix
import Mathlib.Order.Bounds.Basic

/-!
# A matcher that reads its text one element at a time

The state is a number: how much of the pattern the text so far ends with. At a mismatch the matcher
below keeps nothing but the element itself, and no table of borders of the pattern. That is enough for
a pattern whose first element does not come again in it.
-/

namespace Kworker.Lib

universe u

variable {α : Type u} {pat text rest : List α} {a c : α} {k m : Nat}

/-- `k` is the length of the longest proper prefix of `pat` that `text` ends with. -/
def Matched (pat text : List α) (k : Nat) : Prop :=
  IsGreatest {k | k < pat.length ∧ pat.take k <:+ text} k

/-- One element: the state afterwards, and whether the pattern ends here. -/
def restart [DecidableEq α] (pat : List α) (k : Nat) (c : α) : Nat × Bool :=
  if pat[k]? = some c then
    if k + 1 ≥ pat.length then (0, true) else (k + 1, false)
  else (if pat.head? = some c then 1 else 0, false)

/-- The text one element after the other: the state at the end, and the answer to each element. -/
def restarts [DecidableEq α] (pat : List α) : Nat → List α → Nat × List Bool
  | k, [] => (k, [])
  | k, c :: text =>
      let r := restart pat k c
      let rest := restarts pat r.1 text
      (rest.1, r.2 :: rest.2)

/-! ## Prefixes that end a text -/

theorem take_succ_suffix_concat (h : m < pat.length) :
    pat.take (m + 1) <:+ text ++ [c] ↔ pat.take m <:+ text ∧ pat[m]? = some c := by
  have hlen : [pat[m]].length = [c].length := rfl
  rw [List.take_succ_eq_append_getElem h, List.suffix_append_inj_of_length_eq hlen,
    List.getElem?_eq_getElem h]
  simp

theorem matched_nil (h : pat ≠ []) : Matched pat [] 0 := by
  refine ⟨⟨List.length_pos_iff.mpr h, List.nil_suffix⟩, ?_⟩
  rintro m ⟨hm, hsuffix⟩
  have hlen := hsuffix.length_le
  rw [List.length_take, Nat.min_eq_left hm.le] at hlen
  exact hlen

/-- Two prefixes that end the same text overlap, and the shorter one would begin inside the longer. -/
theorem Matched.eq_zero_or (hfirst : a ∉ rest) (hk : Matched (a :: rest) text k)
    (hm : m < (a :: rest).length) (hsuffix : (a :: rest).take m <:+ text) : m = 0 ∨ m = k := by
  obtain ⟨⟨hklt, hksuffix⟩, hmax⟩ := hk
  have hle : m ≤ k := hmax ⟨hm, hsuffix⟩
  have hin : (a :: rest).take m <:+ (a :: rest).take k :=
    List.suffix_of_suffix_length_le hsuffix hksuffix (by simp only [List.length_take]; omega)
  obtain ⟨t, ht⟩ := hin
  have hlen : t.length + m = k := by
    have := congrArg List.length ht
    simp only [List.length_append, List.length_take] at this
    omega
  cases m with
  | zero => exact Or.inl rfl
  | succ m =>
      cases t with
      | nil => exact Or.inr (by simpa using hlen)
      | cons b t =>
          have hk' : k = t.length + m + 1 + 1 := by simp only [List.length_cons] at hlen; omega
          rw [hk', List.take_succ_cons, List.take_succ_cons, List.cons_append, List.cons.injEq] at ht
          have hmem : a ∈ rest.take (t.length + m + 1) := by rw [← ht.2]; simp
          exact absurd (List.mem_of_mem_take hmem) hfirst

/-- What ends the text with one more element began with that element or ended the text before. -/
theorem Matched.extends (hfirst : a ∉ rest) (hk : Matched (a :: rest) text k)
    (hm : m + 1 < (a :: rest).length) (hsuffix : (a :: rest).take (m + 1) <:+ text ++ [c]) :
    m = 0 ∧ c = a ∨ m = k ∧ (a :: rest)[k]? = some c := by
  obtain ⟨htake, hget⟩ := (take_succ_suffix_concat (by omega)).mp hsuffix
  rcases hk.eq_zero_or hfirst (by omega) htake with rfl | rfl
  · exact Or.inl ⟨rfl, by simpa using hget.symm⟩
  · exact Or.inr ⟨rfl, hget⟩

/-! ## The matcher -/

section

variable [DecidableEq α]

theorem restart_hit_iff (hk : Matched pat text k) : (restart pat k c).2 = true ↔ pat <:+ text ++ [c] := by
  obtain ⟨⟨hlt, hsuffix⟩, hmax⟩ := hk
  have hlast : pat.length - 1 < pat.length := by omega
  have hwhole : pat.take (pat.length - 1 + 1) <:+ text ++ [c] ↔
      pat.take (pat.length - 1) <:+ text ∧ pat[pat.length - 1]? = some c := take_succ_suffix_concat hlast
  rw [Nat.sub_add_cancel (by omega), List.take_length] at hwhole
  unfold restart
  split_ifs with hget hend
  · have hk : k = pat.length - 1 := by omega
    subst hk
    exact ⟨fun _ => hwhole.mpr ⟨hsuffix, hget⟩, fun _ => rfl⟩
  all_goals
    refine ⟨nofun, fun h => ?_⟩
    obtain ⟨htake, hget'⟩ := hwhole.mp h
    have hle : pat.length - 1 ≤ k := hmax ⟨hlast, htake⟩
  · omega
  · have hk : k = pat.length - 1 := by omega
    exact absurd (hk ▸ hget') hget

theorem restart_matched (hfirst : a ∉ rest) (hk : Matched (a :: rest) text k) :
    Matched (a :: rest) (text ++ [c]) (restart (a :: rest) k c).1 := by
  have hext := fun m => hk.extends (m := m) (c := c) hfirst
  obtain ⟨⟨hlt, hsuffix⟩, -⟩ := hk
  unfold restart
  split_ifs with hget hend hhead
  · -- the whole pattern: none of its proper prefixes ends it
    refine ⟨⟨by simp, List.nil_suffix⟩, ?_⟩
    rintro (_ | m) ⟨hm, hsuffix'⟩
    · exact le_rfl
    · rcases hext m hm hsuffix' with ⟨rfl, rfl⟩ | ⟨rfl, -⟩
      · cases k with
        | zero => omega
        | succ k => exact absurd (List.mem_of_getElem? (by simpa using hget)) hfirst
      · omega
  · refine ⟨⟨by omega, (take_succ_suffix_concat hlt).mpr ⟨hsuffix, hget⟩⟩, ?_⟩
    rintro (_ | m) ⟨hm, hsuffix'⟩
    · omega
    · rcases hext m hm hsuffix' with ⟨rfl, -⟩ | ⟨rfl, -⟩
      · omega
      · exact le_rfl
  · have hk : k ≠ 0 := by
      rintro rfl
      exact hget (by simpa using hhead)
    have ha : a = c := by simpa using hhead
    refine ⟨⟨by omega, ?_⟩, ?_⟩
    · subst ha
      exact List.suffix_append text [a]
    · rintro (_ | m) ⟨hm, hsuffix'⟩
      · omega
      · rcases hext m hm hsuffix' with ⟨rfl, -⟩ | ⟨-, hget'⟩
        · exact le_rfl
        · exact absurd hget' hget
  · refine ⟨⟨by simp, List.nil_suffix⟩, ?_⟩
    rintro (_ | m) ⟨hm, hsuffix'⟩
    · exact le_rfl
    · rcases hext m hm hsuffix' with ⟨-, rfl⟩ | ⟨-, hget'⟩
      · exact absurd rfl hhead
      · exact absurd hget' hget

theorem restarts_matched (hfirst : a ∉ rest) (hk : Matched (a :: rest) text k) (more : List α) :
    Matched (a :: rest) (text ++ more) (restarts (a :: rest) k more).1 := by
  induction more generalizing text k with
  | nil => simpa [restarts] using hk
  | cons c more ih =>
      have hnext := ih (restart_matched (c := c) hfirst hk)
      rwa [List.append_assoc] at hnext

theorem restarts_length (pat : List α) (k : Nat) (text : List α) :
    (restarts pat k text).2.length = text.length := by
  induction text generalizing k with
  | nil => rfl
  | cons c text ih => simp [restarts, ih]

theorem restarts_hit_iff (hfirst : a ∉ rest) (hk : Matched (a :: rest) text k) {more : List α} {n : Nat}
    (hn : n < more.length) :
    (restarts (a :: rest) k more).2[n]? = some true ↔ (a :: rest) <:+ text ++ more.take (n + 1) := by
  induction more generalizing text k n with
  | nil => cases hn
  | cons c more ih =>
      cases n with
      | zero => simpa [restarts] using restart_hit_iff hk
      | succ n =>
          have hnext := ih (restart_matched (c := c) hfirst hk) (Nat.succ_lt_succ_iff.mp hn)
          rwa [List.append_assoc] at hnext

end

end Kworker.Lib

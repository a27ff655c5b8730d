import Kworker.Lib.Js
import Mathlib.Data.List.Forall2

/-!
# Lines of a text of JavaScript
-/

namespace Kworker.Lib

/-- `s.split(/\r?\n/)` -/
def splitLines : JsString → List JsString
  | [] => [[]]
  | 10 :: s => [] :: splitLines s
  | 13 :: 10 :: s => [] :: splitLines s
  | c :: s => (splitLines s).modifyHead (c :: ·)

/-- `line.replace(/\s+$/, '')` -/
def trimEnd (line : JsString) : JsString := line.rdropWhile isBlank

/-- A line of the split at line feeds, and the same line without the carriage return of its end. -/
def SameLine (ln line : JsString) : Prop := line = ln ∨ line = ln ++ [13]

theorem SameLine.cons {ln line : JsString} (h : SameLine ln line) (c : UInt16) :
    SameLine (c :: ln) (c :: line) := by
  rcases h with rfl | rfl
  · exact .inl rfl
  · exact .inr rfl

theorem sameLine_splitLines (s : JsString) : List.Forall₂ SameLine (splitLines s) (s.splitOn 10) := by
  induction s using splitLines.induct with
  | case1 => exact .cons (.inl rfl) .nil
  | case2 s ih =>
      rw [List.splitOn_cons_eq_if_modifyHead]
      exact .cons (.inl rfl) ih
  | case3 s ih =>
      rw [List.splitOn_cons_eq_if_modifyHead, List.splitOn_cons_eq_if_modifyHead]
      exact .cons (.inr rfl) ih
  | case4 c s hfeed hreturn ih =>
      have hc : (c == 10) = false := beq_eq_false_iff_ne.mpr hfeed
      rw [List.splitOn_cons_eq_if_modifyHead, hc, splitLines]
      · generalize splitLines s = lns at ih
        generalize s.splitOn 10 = lines at ih
        cases ih with
        | nil => exact .nil
        | cons hhead htail => exact .cons (hhead.cons c) htail
      · exact hfeed
      · exact hreturn

theorem SameLine.trimEnd_eq {ln line : JsString} (h : SameLine ln line) : trimEnd ln = trimEnd line := by
  rcases h with rfl | rfl
  · rfl
  · exact (List.rdropWhile_concat_pos isBlank ln 13 (by decide)).symm

theorem map_trimEnd_splitLines (s : JsString) :
    (splitLines s).map trimEnd = (s.splitOn 10).map trimEnd := by
  have hsame := sameLine_splitLines s
  generalize splitLines s = lns at hsame
  generalize s.splitOn 10 = lines at hsame
  induction hsame with
  | nil => rfl
  | cons hhead _ ih => rw [List.map_cons, List.map_cons, hhead.trimEnd_eq, ih]

/-- The lines of a text without the blanks at their ends, joined again. -/
def trimLines (s : JsString) : JsString := [10].intercalate ((splitLines s).map trimEnd)

theorem not_mem_of_mem_splitOn (s : JsString) : ∀ line ∈ s.splitOn 10, 10 ∉ line := by
  induction s with
  | nil => simp
  | cons c s ih =>
      rw [List.splitOn_cons_eq_if_modifyHead]
      split
      · simpa using ih
      · rename_i hc
        have hne : (10 : UInt16) ≠ c := fun h => hc (beq_iff_eq.mpr h.symm)
        generalize s.splitOn 10 = lines at ih
        cases lines with
        | nil => simp
        | cons l lines => simpa [hne] using ih

theorem splitOn_trimLines (s : JsString) : (trimLines s).splitOn 10 = (s.splitOn 10).map trimEnd := by
  rw [trimLines, map_trimEnd_splitLines]
  refine List.splitOn_intercalate 10 ?_ ?_
  · intro line hline hmem
    obtain ⟨l, hl, rfl⟩ := List.mem_map.mp hline
    exact not_mem_of_mem_splitOn s l hl ((List.rdropWhile_prefix isBlank l).subset hmem)
  · exact mt List.map_eq_nil_iff.mp (List.splitOn_ne_nil 10 s)

/-- A text stays as it is exactly if none of its lines ends in a blank; a carriage return is one. -/
theorem trimLines_eq_self_iff {s : JsString} : trimLines s = s ↔ ∀ line ∈ s.splitOn 10, trimEnd line = line := by
  constructor
  · intro h line hline
    have hmap := splitOn_trimLines s
    rw [h] at hmap
    exact List.map_inj_left.mp (hmap.symm.trans (List.map_id _).symm) line hline
  · intro h
    have hmap : (s.splitOn 10).map trimEnd = s.splitOn 10 :=
      (List.map_inj_left.mpr h).trans (List.map_id _)
    rw [trimLines, map_trimEnd_splitLines, hmap, List.intercalate_splitOn]

end Kworker.Lib

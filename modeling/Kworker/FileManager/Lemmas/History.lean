import Kworker.FileManager.Lemmas.Index
import Mathlib.Data.List.Chain

/-!
# What one step does with the history
-/

namespace Kworker.FileManager

open Kworker.Lib

variable {fs : FileSystem} {v v' : Index}

/-! ## What leaves it alone -/

theorem showFiles_here (fs : FileSystem) (v : Index) : (showFiles fs v).here = v.here := by
  obtain ⟨_, _, _, h⟩ := showFiles_frame fs v
  rw [h]
  rfl

theorem loadFinished_frame (fs : FileSystem) (path : String) (v : Index) : ∃ files message,
    loadFinished fs path v = { v with currentFiles := files, errorMessage := message } := by
  unfold loadFinished
  cases fs.listFile path with
  | none => exact ⟨_, _, rfl⟩
  | some names => exact ⟨_, _, rfl⟩

/-! ## Navigations -/

/-- A navigation to the location that is shown does nothing; any other cuts the history after the index
and adds its record at the end. -/
theorem navigateTo_cases (fs : FileSystem) (pathName : String) (navId realPath : Option String)
    (h : v.historyIndex < v.pathHistory.length) :
    (v.here = target pathName realPath ∧ navigateTo fs pathName navId realPath v = v) ∨
    (v.here ≠ target pathName realPath ∧
      (navigateTo fs pathName navId realPath v).pathHistory =
        v.pathHistory.take (v.historyIndex + 1) ++ [target pathName realPath] ∧
      (navigateTo fs pathName navId realPath v).historyIndex = v.historyIndex + 1 ∧
      (navigateTo fs pathName navId realPath v).here = target pathName realPath) := by
  have htake : (if v.historyIndex + 1 < v.pathHistory.length then v.pathHistory.take (v.historyIndex + 1)
      else v.pathHistory) = v.pathHistory.take (v.historyIndex + 1) := by
    split
    · rfl
    · rename_i hlast
      exact (List.take_of_length_le (not_lt.mp hlast)).symm
  have hlen : (v.pathHistory.take (v.historyIndex + 1)).length = v.historyIndex + 1 := by
    rw [List.length_take]
    omega
  unfold navigateTo
  simp only [htake]
  split
  · rename_i hsame
    left
    refine ⟨?_, rfl⟩
    rw [Index.here, hsame.1, hsame.2]
    rfl
  · rename_i hother
    right
    refine ⟨?_, ?_, ?_, ?_⟩
    · intro hhere
      obtain ⟨hpath, hreal⟩ := PathRecord.mk.inj hhere
      exact hother ⟨hpath, hreal⟩
    · exact (showFiles_history fs _).1
    · rw [(showFiles_history fs _).2]
      simp only [List.length_append, List.length_singleton, hlen]
      omega
    · exact showFiles_here fs _

theorem showRecord_history (fs : FileSystem) {i : Nat} (hi : i < v.pathHistory.length) :
    (showRecord fs i v).pathHistory = v.pathHistory ∧ (showRecord fs i v).historyIndex = i ∧
    v.pathHistory[i]? = some (showRecord fs i v).here := by
  rw [showRecord_eq hi, showFiles_here]
  refine ⟨(showFiles_history fs _).1, (showFiles_history fs _).2, ?_⟩
  rw [List.getElem?_eq_getElem hi]
  rfl

/-! ## The invariant -/

theorem historyOk_initial : Index.HistoryOk {} where
  inRange := by decide
  located := rfl
  distinct := List.isChain_singleton _

/-- The history may be the same, at another of its records. -/
theorem Index.HistoryOk.moved (h : v.HistoryOk) {i : Nat} (hi : i < v.pathHistory.length)
    (hmoved : v'.pathHistory = v.pathHistory ∧ v'.historyIndex = i ∧ v.pathHistory[i]? = some v'.here) :
    v'.HistoryOk := by
  obtain ⟨hpaths, rfl, hhere⟩ := hmoved
  refine ⟨?_, ?_, ?_⟩
  · rw [hpaths]
    exact hi
  · rw [hpaths]
    exact hhere
  · rw [hpaths]
    exact h.distinct

theorem Index.HistoryOk.navigateTo (h : v.HistoryOk) (fs : FileSystem) (pathName : String)
    (navId realPath : Option String) :
    (FileManager.navigateTo fs pathName navId realPath v).HistoryOk := by
  rcases navigateTo_cases fs pathName navId realPath h.inRange with ⟨_, hsame⟩ | ⟨hne, hpaths, hindex, hhere⟩
  · rw [hsame]
    exact h
  · have hlen : (v.pathHistory.take (v.historyIndex + 1)).length = v.historyIndex + 1 := by
      have := h.inRange
      rw [List.length_take]
      omega
    refine ⟨?_, ?_, ?_⟩
    · rw [hpaths, hindex, List.length_append, hlen]
      exact Nat.lt_succ_self _
    · rw [hpaths, hindex, hhere, List.getElem?_append_right hlen.le, hlen, Nat.sub_self]
      rfl
    · rw [hpaths]
      refine (h.distinct.take _).append (List.isChain_singleton _) ?_
      -- the last record that is kept is the one of the location that was shown
      intro last hlast new hnew
      rw [List.head?_singleton, Option.mem_some_iff] at hnew
      rw [Option.mem_def, List.getLast?_eq_getElem?, hlen, Nat.add_sub_cancel,
        List.getElem?_take_of_lt (Nat.lt_succ_self _), h.located, Option.some.injEq] at hlast
      rw [← hlast, ← hnew]
      exact hne

theorem Index.HistoryOk.step (v : Index) (a : Act) (v' : Index) (h : v.HistoryOk)
    (hstep : (history fs).step v a = some v') : v'.HistoryOk := by
  have hrange := h.inRange
  cases a with
  | navigateTo pathName navId realPath =>
      cases hstep
      exact h.navigateTo fs pathName navId realPath
  | goBack =>
      cases hstep
      unfold goBack
      split
      · have hi : v.historyIndex - 1 < v.pathHistory.length := by omega
        exact h.moved hi (showRecord_history fs hi)
      · exact h
  | goForward =>
      cases hstep
      unfold goForward
      split
      · rename_i hi
        exact h.moved hi (showRecord_history fs hi)
      · exact h
  | finish k =>
      obtain ⟨path, _, rfl⟩ := Option.map_eq_some_iff.mp hstep
      obtain ⟨_, _, hload⟩ := loadFinished_frame fs path { v with loads := v.loads.eraseIdx k }
      rw [hload]
      exact h.moved hrange ⟨rfl, rfl, h.located⟩

/-! ## There and back -/

theorem goBack_of_pos (fs : FileSystem) (hpos : 0 < v.historyIndex) (h : v.historyIndex < v.pathHistory.length) :
    (goBack fs v).pathHistory = v.pathHistory ∧ (goBack fs v).historyIndex = v.historyIndex - 1 ∧
    v.pathHistory[v.historyIndex - 1]? = some (goBack fs v).here := by
  have hi : v.historyIndex - 1 < v.pathHistory.length := by omega
  unfold goBack
  rw [if_pos hpos]
  exact showRecord_history fs hi

theorem goForward_of_lt (fs : FileSystem) (h : v.historyIndex + 1 < v.pathHistory.length) :
    (goForward fs v).pathHistory = v.pathHistory ∧ (goForward fs v).historyIndex = v.historyIndex + 1 ∧
    v.pathHistory[v.historyIndex + 1]? = some (goForward fs v).here := by
  unfold goForward
  rw [if_pos h]
  exact showRecord_history fs h

/-- Going back after a navigation that did something shows what was shown before it. -/
theorem goBack_navigateTo (h : v.HistoryOk) {pathName : String} {navId realPath : Option String}
    (heff : navigateTo fs pathName navId realPath v ≠ v) :
    (goBack fs (navigateTo fs pathName navId realPath v)).here = v.here := by
  have hok := h.navigateTo fs pathName navId realPath
  have hrange := h.inRange
  rcases navigateTo_cases fs pathName navId realPath h.inRange with ⟨_, hsame⟩ | ⟨_, hpaths, hindex, _⟩
  · exact absurd hsame heff
  · obtain ⟨_, _, hback⟩ := goBack_of_pos fs (by omega) hok.inRange
    have hlt : v.historyIndex < (v.pathHistory.take (v.historyIndex + 1)).length := by
      rw [List.length_take]
      omega
    rw [hindex, Nat.add_sub_cancel, hpaths, List.getElem?_append_left hlt,
      List.getElem?_take_of_lt (Nat.lt_succ_self _), h.located, Option.some.injEq] at hback
    exact hback.symm

theorem goForward_goBack (h : v.HistoryOk) (heff : goBack fs v ≠ v) :
    (goForward fs (goBack fs v)).here = v.here := by
  have hrange := h.inRange
  have hpos : 0 < v.historyIndex := by
    by_contra hzero
    exact heff (if_neg hzero)
  obtain ⟨hpaths, hindex, _⟩ := goBack_of_pos fs hpos hrange
  obtain ⟨_, _, hforward⟩ := goForward_of_lt fs (v := goBack fs v) (by rw [hpaths, hindex]; omega)
  rw [hpaths, hindex, Nat.sub_add_cancel hpos, h.located, Option.some.injEq] at hforward
  exact hforward.symm

end Kworker.FileManager

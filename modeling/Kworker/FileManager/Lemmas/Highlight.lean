import Kworker.FileManager.Lemmas.History

/-!
# What one step does with the highlighted node
-/

namespace Kworker.FileManager

open Kworker.Lib

variable {fs : FileSystem} {v v' : Index}

/-! ## The node of a name -/

theorem showFiles_selectedNavId (fs : FileSystem) (v : Index) :
    (showFiles fs v).selectedNavId = v.selectedNavId := by
  obtain ⟨_, _, _, h⟩ := showFiles_frame fs v
  rw [h]

theorem showRecord_selectedNavId (fs : FileSystem) {i : Nat} (hi : i < v.pathHistory.length) :
    (showRecord fs i v).selectedNavId = (v.nodeAt i).getD v.selectedNavId := by
  rw [showRecord_eq hi, showFiles_selectedNavId, Index.nodeAt, List.getElem?_eq_getElem hi]
  rfl

theorem navigateTo_selectedNavId (fs : FileSystem) {pathName : String} {navId realPath : Option String}
    (h : v.here ≠ target pathName realPath) :
    (navigateTo fs pathName navId realPath v).selectedNavId = (truthy navId).getD v.selectedNavId := by
  unfold navigateTo
  simp only
  split
  · rename_i hsame
    refine absurd ?_ h
    rw [Index.here, hsame.1, hsame.2]
    rfl
  · exact showFiles_selectedNavId fs _

theorem goBack_selectedNavId (fs : FileSystem) (hpos : 0 < v.historyIndex)
    (hrange : v.historyIndex < v.pathHistory.length) :
    (goBack fs v).selectedNavId = (v.nodeAt (v.historyIndex - 1)).getD v.selectedNavId := by
  unfold goBack
  rw [if_pos hpos]
  exact showRecord_selectedNavId fs (by omega)

theorem goForward_selectedNavId (fs : FileSystem) (hi : v.historyIndex + 1 < v.pathHistory.length) :
    (goForward fs v).selectedNavId = (v.nodeAt (v.historyIndex + 1)).getD v.selectedNavId := by
  unfold goForward
  rw [if_pos hi]
  exact showRecord_selectedNavId fs hi

/-! ## A step -/

/-- What a step does with the history, its index and the highlighted node. -/
inductive Moves (v : Index) : Act → Index → Prop
  | stays {a} {v' : Index} (hpaths : v'.pathHistory = v.pathHistory) (hindex : v'.historyIndex = v.historyIndex)
      (hid : v'.selectedNavId = v.selectedNavId) (ha : v.KeepsHighlight a ∧ v.KeepsNearest a) : Moves v a v'
  | goes {pathName navId realPath} {v' : Index} (hne : v.here ≠ target pathName realPath)
      (hpaths : v'.pathHistory = v.pathHistory.take (v.historyIndex + 1) ++ [target pathName realPath])
      (hindex : v'.historyIndex = v.historyIndex + 1)
      (hid : v'.selectedNavId = (truthy navId).getD v.selectedNavId) :
      Moves v (.navigateTo pathName navId realPath) v'
  | back {v' : Index} (hpos : 0 < v.historyIndex) (hpaths : v'.pathHistory = v.pathHistory)
      (hindex : v'.historyIndex = v.historyIndex - 1)
      (hid : v'.selectedNavId = (v.nodeAt (v.historyIndex - 1)).getD v.selectedNavId) : Moves v .goBack v'
  | forward {v' : Index} (hi : v.historyIndex + 1 < v.pathHistory.length)
      (hpaths : v'.pathHistory = v.pathHistory)
      (hindex : v'.historyIndex = v.historyIndex + 1)
      (hid : v'.selectedNavId = (v.nodeAt (v.historyIndex + 1)).getD v.selectedNavId) : Moves v .goForward v'

theorem step_moves {a : Act} (h : v.HistoryOk) (hstep : v.step fs a = some v') : Moves v a v' := by
  have hrange := h.inRange
  cases a with
  | navigateTo pathName navId realPath =>
      cases hstep
      rcases navigateTo_cases fs pathName navId realPath hrange with ⟨hhere, hsame⟩ | ⟨hne, hpaths, hindex, _⟩
      · rw [hsame]
        exact .stays rfl rfl rfl ⟨fun _ hne => absurd hhere hne, fun _ hne => absurd hhere hne⟩
      · exact .goes hne hpaths hindex (navigateTo_selectedNavId fs hne)
  | goBack =>
      cases hstep
      by_cases hpos : 0 < v.historyIndex
      · obtain ⟨hpaths, hindex, _⟩ := goBack_of_pos fs hpos hrange
        exact .back hpos hpaths hindex (goBack_selectedNavId fs hpos hrange)
      · have hsame : goBack fs v = v := if_neg hpos
        rw [hsame]
        exact .stays rfl rfl rfl ⟨fun h2 => absurd h2 (by omega), fun h1 => absurd h1 hpos⟩
  | goForward =>
      cases hstep
      by_cases hi : v.historyIndex + 1 < v.pathHistory.length
      · obtain ⟨hpaths, hindex, _⟩ := goForward_of_lt fs hi
        exact .forward hi hpaths hindex (goForward_selectedNavId fs hi)
      · have hsame : goForward fs v = v := if_neg hi
        rw [hsame]
        exact .stays rfl rfl rfl ⟨trivial, trivial⟩
  | finish k =>
      obtain ⟨path, _, rfl⟩ := Option.map_eq_some_iff.mp hstep
      obtain ⟨_, _, hload⟩ := loadFinished_frame fs path { v with loads := v.loads.eraseIdx k }
      rw [hload]
      exact .stays rfl rfl rfl ⟨trivial, trivial⟩

theorem clicks_navigateTo {pathName : String} {navId realPath : Option String}
    (h : (Act.navigateTo pathName navId realPath).Offered = true) (fs : FileSystem) (v : Index) :
    ∃ a, (clicks fs).step v a = some (navigateTo fs pathName navId realPath v) :=
  ⟨.navigateTo pathName navId realPath, if_pos h⟩

/-- The button for going up and the address bar are among what the page offers. -/
theorem goUp_offered (fs : FileSystem) (v : Index) :
    goUp fs v = v ∨ ∃ a, (clicks fs).step v a = some (goUp fs v) := by
  unfold goUp
  split
  · exact Or.inr (clicks_navigateTo (by decide) fs v)
  · exact Or.inl rfl

theorem onSubmit_offered (fs : FileSystem) (input : String) (v : Index) :
    ∃ a, (clicks fs).step v a = some (onSubmit fs input v) := by
  unfold onSubmit
  split_ifs
  · exact clicks_navigateTo (by decide) fs v
  · exact clicks_navigateTo (by decide) fs v
  · exact clicks_navigateTo (by decide) fs v
  · exact clicks_navigateTo (decide_eq_true (Or.inl rfl)) fs v

theorem Index.nodeAt_congr (h : v'.pathHistory = v.pathHistory) (i : Nat) : v'.nodeAt i = v.nodeAt i := by
  rw [Index.nodeAt, Index.nodeAt, h]

/-- The history is sound, and at its first record that one's node is highlighted. -/
structure Index.Opened (v : Index) : Prop where
  history : v.HistoryOk
  first : v.historyIndex = 0 → ∀ id, v.nodeAt 0 = some id → v.selectedNavId = id

theorem clicks_step {a : Act} (hstep : (clicks fs).step v a = some v') :
    a.Offered = true ∧ v.step fs a = some v' := Option.ite_none_right_eq_some.mp hstep

theorem Index.Opened.step (v : Index) (a : Act) (v' : Index) (h : v.Opened)
    (hstep : (clicks fs).step v a = some v') : v'.Opened := by
  obtain ⟨_, hstep⟩ := clicks_step hstep
  refine ⟨h.history.step v a v' hstep, ?_⟩
  intro hzero id hid
  cases step_moves h.history hstep with
  | stays hpaths hindex hselected _ =>
      rw [Index.nodeAt_congr hpaths] at hid
      rw [hselected]
      exact h.first (hindex ▸ hzero) id hid
  | goes _ _ hindex _ => omega
  | back _ hpaths hindex hselected =>
      rw [Index.nodeAt_congr hpaths] at hid
      rw [hselected, ← hindex, hzero, hid]
      rfl
  | forward _ _ hindex _ => omega

end Kworker.FileManager
